import PhaseWire.Codec.Decoder

/-
# Decoders of streams

What a decoder gives should depend on the bytes that came and not on how
they were cut, nor on when it was asked.  `IsStreaming` collects the local
laws from which this follows; `absorb` is how bytes join those that wait.
The laws speak of one call of `decode` on a state that has all its bytes:

    the bytes handed to a call could have been absorbed before it
    a verdict stays when more bytes arrive, unless it asked for more
    an item takes away a byte at least

`Drained` is the meaning of draining, without fuel: the items, the fault if
there is one, and the state behind them, as a function of the state in
front.  Everything that is done with pieces is compared with it
(`drain_drained`, `feed_drained`, `play_drained`), and it is determined
(`Drained.unique`), so two ways to cut the same bytes agree.
-/

namespace PhaseWire.Decoder

variable {σ α : Type}

/-- The laws of a decoder whose answers do not depend on how the bytes arrive. -/
structure IsStreaming (decoder : Decoder σ α) (absorb : σ → Bytes → σ) : Prop where
  absorb_nil : ∀ state, absorb state [] = state
  absorb_append : ∀ state front back,
    absorb state (front ++ back) = absorb (absorb state front) back
  pending_absorb : ∀ state bytes,
    decoder.pending (absorb state bytes) = decoder.pending state + bytes.length
  decode_eq : ∀ state bytes,
    decoder.decode state bytes = decoder.decode (absorb state bytes) []
  decode_some : ∀ {state item next}, decoder.decode state [] = (.ok (some item), next) →
    ∀ more, decoder.decode (absorb state more) [] = (.ok (some item), absorb next more)
  decode_error : ∀ {state fault next}, decoder.decode state [] = (.error fault, next) →
    ∀ more, ∃ other, decoder.decode (absorb state more) [] = (.error fault, other)
  decode_none : ∀ {state next}, decoder.decode state [] = (.ok none, next) → next = state
  pending_lt : ∀ {state item next}, decoder.decode state [] = (.ok (some item), next) →
    decoder.pending next < decoder.pending state

/-! ## Draining without fuel -/

/-- `Drained decoder state items fault? last`: asking `state` for items until more bytes are needed
gives `items`, stops at `fault?` and leaves `last`. -/
inductive Drained (decoder : Decoder σ α) : σ → List α → Option Fault → σ → Prop
  | done {state last : σ} : decoder.decode state [] = (.ok none, last) →
      Drained decoder state [] none last
  | fault {state last : σ} {fault : Fault} : decoder.decode state [] = (.error fault, last) →
      Drained decoder state [] (some fault) last
  | item {state next last : σ} {item : α} {items : List α} {fault? : Option Fault} :
      decoder.decode state [] = (.ok (some item), next) →
      Drained decoder next items fault? last →
      Drained decoder state (item :: items) fault? last

namespace Drained

variable {decoder : Decoder σ α} {absorb : σ → Bytes → σ} {state last : σ} {items : List α}
  {fault? : Option Fault}

/-- Draining is determined by the state in front of it. -/
theorem unique (h : Drained decoder state items fault? last) :
    ∀ {items' : List α} {fault?' : Option Fault} {last' : σ},
      Drained decoder state items' fault?' last' →
        items = items' ∧ fault? = fault?' ∧ last = last' := by
  induction h with
  | done h =>
      intro items' fault?' last' h'
      cases h' with
      | done h' => rw [h] at h'; cases h'; exact ⟨rfl, rfl, rfl⟩
      | fault h' => rw [h] at h'; cases h'
      | item h' _ => rw [h] at h'; cases h'
  | fault h =>
      intro items' fault?' last' h'
      cases h' with
      | done h' => rw [h] at h'; cases h'
      | fault h' => rw [h] at h'; cases h'; exact ⟨rfl, rfl, rfl⟩
      | item h' _ => rw [h] at h'; cases h'
  | item h _ ih =>
      intro items' fault?' last' h'
      cases h' with
      | done h' => rw [h] at h'; cases h'
      | fault h' => rw [h] at h'; cases h'
      | item h' hrest =>
          rw [h] at h'
          cases h'
          obtain ⟨rfl, rfl, rfl⟩ := ih hrest
          exact ⟨rfl, rfl, rfl⟩

theorem decode_last (hd : decoder.IsStreaming absorb)
    (h : Drained decoder state items none last) : decoder.decode last [] = (.ok none, last) := by
  generalize hnone : none = fault? at h
  induction h with
  | done h =>
      obtain rfl := hd.decode_none h
      exact h
  | fault _ => exact absurd hnone (by simp)
  | item _ _ ih => exact ih hnone

theorem length_le (hd : decoder.IsStreaming absorb)
    (h : Drained decoder state items fault? last) : items.length ≤ decoder.pending state := by
  induction h with
  | done _ => exact Nat.zero_le _
  | fault _ => exact Nat.zero_le _
  | item h _ ih =>
      have := hd.pending_lt h
      rw [List.length_cons]
      omega

theorem preserves {P : σ → Prop}
    (hP : ∀ {state outcome next}, decoder.decode state [] = (outcome, next) → P state → P next)
    (h : Drained decoder state items fault? last) : P state → P last := by
  induction h with
  | done h => exact hP h
  | fault h => exact hP h
  | item h _ ih => exact fun hstate => ih (hP h hstate)

/-- Bytes that arrive behind a drained state are drained from where it ended. -/
theorem append (hd : decoder.IsStreaming absorb)
    (h : Drained decoder state items none last) {more : Bytes} {items' : List α}
    {fault?' : Option Fault} {last' : σ}
    (hmore : Drained decoder (absorb last more) items' fault?' last') :
    Drained decoder (absorb state more) (items ++ items') fault?' last' := by
  generalize hnone : none = fault? at h
  induction h with
  | done h =>
      obtain rfl := hd.decode_none h
      exact hmore
  | fault _ => exact absurd hnone (by simp)
  | item h _ ih => exact .item (hd.decode_some h more) (ih hmore hnone)

theorem append_fault (hd : decoder.IsStreaming absorb) {fault : Fault}
    (h : Drained decoder state items (some fault) last) (more : Bytes) :
    ∃ other, Drained decoder (absorb state more) items (some fault) other := by
  generalize hsome : some fault = fault? at h
  induction h with
  | done _ => exact absurd hsome (by simp)
  | fault h =>
      obtain rfl := Option.some.inj hsome
      obtain ⟨other, hother⟩ := hd.decode_error h more
      exact ⟨other, .fault hother⟩
  | item h _ ih =>
      obtain ⟨other, hother⟩ := ih hsome
      exact ⟨other, .item (hd.decode_some h more) hother⟩

end Drained

/-! ## What was decoded stands for what arrived -/

variable {decoder : Decoder σ α} {absorb : σ → Bytes → σ}

/-- Draining with enough fuel is draining. -/
theorem drainFrom_drained (hd : decoder.IsStreaming absorb) :
    ∀ (fuel : Nat) (done : List α) (state : σ) (incoming : Bytes),
      decoder.pending state + incoming.length < fuel →
      ∃ items, (decoder.drainFrom fuel done state incoming).items = done.reverse ++ items
        ∧ Drained decoder (absorb state incoming) items
            (decoder.drainFrom fuel done state incoming).fault?
            (decoder.drainFrom fuel done state incoming).state := by
  intro fuel
  induction fuel with
  | zero =>
      intro done state incoming h
      exact absurd h (Nat.not_lt_zero _)
  | succ fuel ih =>
      intro done state incoming h
      rw [drainFrom]
      have hdecode := hd.decode_eq state incoming
      split
      · rename_i fault next heq
        exact ⟨[], by simp, .fault (by rw [← hdecode, heq])⟩
      · rename_i next heq
        exact ⟨[], by simp, .done (by rw [← hdecode, heq])⟩
      · rename_i item next heq
        have hitem : decoder.decode (absorb state incoming) [] = (.ok (some item), next) := by
          rw [← hdecode, heq]
        have hless := hd.pending_lt hitem
        rw [hd.pending_absorb] at hless
        obtain ⟨items, hitems, hdrained⟩ :=
          ih (item :: done) next [] (by rw [List.length_nil]; omega)
        rw [hd.absorb_nil] at hdrained
        refine ⟨item :: items, ?_, .item hitem hdrained⟩
        rw [hitems, List.reverse_cons, List.append_assoc, List.singleton_append]

theorem drain_drained (hd : decoder.IsStreaming absorb) (state : σ) (incoming : Bytes) :
    Drained decoder (absorb state incoming) (decoder.drain state incoming).items
      (decoder.drain state incoming).fault? (decoder.drain state incoming).state := by
  obtain ⟨items, hitems, hdrained⟩ :=
    drainFrom_drained hd _ [] state incoming (Nat.lt_succ_self _)
  rw [List.reverse_nil, List.nil_append] at hitems
  rw [drain, hitems]
  exact hdrained

/-- `decoded` is what comes of the bytes in `arrived`, all of which arrived behind `start`, while
those in `unread` have not been handed over yet. -/
structure Accounts (decoder : Decoder σ α) (absorb : σ → Bytes → σ) (start : σ)
    (arrived unread : Bytes) (decoded : Decoded σ α) : Prop where
  /-- What is drained from here on comes behind the items so far. -/
  goes_on : decoded.fault? = none → ∀ more {items fault? last},
    Drained decoder (absorb decoded.state (unread ++ more)) items fault? last →
    Drained decoder (absorb start (arrived ++ more)) (decoded.items ++ items) fault? last
  /-- A fault stays. -/
  stops : ∀ {fault}, decoded.fault? = some fault → ∀ more,
    ∃ last, Drained decoder (absorb start (arrived ++ more)) decoded.items (some fault) last

namespace Accounts

variable {start : σ} {arrived unread : Bytes} {decoded : Decoded σ α}

theorem initial (state : σ) : Accounts decoder absorb state [] [] ⟨[], none, state⟩ where
  goes_on := by
    intro _ more items fault? last h
    exact h
  stops := by
    intro fault h
    exact absurd h (by simp)

theorem arrive (h : Accounts decoder absorb start arrived unread decoded) (piece : Bytes) :
    Accounts decoder absorb start (arrived ++ piece) (unread ++ piece) decoded where
  goes_on := by
    intro hnone more items fault? last hmore
    rw [List.append_assoc] at hmore ⊢
    exact h.goes_on hnone (piece ++ more) hmore
  stops := by
    intro fault hfault more
    rw [List.append_assoc]
    exact h.stops hfault (piece ++ more)

theorem more (hd : decoder.IsStreaming absorb)
    (h : Accounts decoder absorb start arrived unread decoded) (hnone : decoded.fault? = none) :
    Accounts decoder absorb start arrived [] (decoder.more decoded unread) where
  goes_on := by
    intro hfault more items fault? last hmore
    have hdrained := drain_drained hd decoded.state unread
    rw [show (decoder.drain decoded.state unread).fault? = none from hfault] at hdrained
    have hboth := hdrained.append hd hmore
    rw [List.nil_append, ← hd.absorb_append] at hboth
    have hall := h.goes_on hnone more hboth
    rw [← List.append_assoc] at hall
    exact hall
  stops := by
    intro fault hfault more
    have hdrained := drain_drained hd decoded.state unread
    rw [show (decoder.drain decoded.state unread).fault? = some fault from hfault] at hdrained
    obtain ⟨last, hlast⟩ := hdrained.append_fault hd more
    rw [← hd.absorb_append] at hlast
    exact ⟨last, h.goes_on hnone more hlast⟩

theorem drained (h : Accounts decoder absorb start arrived [] decoded)
    (hd : decoder.IsStreaming absorb)
    (hidle : decoded.fault? = none → decoder.decode decoded.state [] = (.ok none, decoded.state)) :
    ∃ last, Drained decoder (absorb start arrived) decoded.items decoded.fault? last
      ∧ (decoded.fault? = none → last = decoded.state) := by
  cases hfault : decoded.fault? with
  | none =>
      have hrest : Drained decoder (absorb decoded.state ([] ++ [])) [] none decoded.state := by
        rw [List.nil_append, hd.absorb_nil]
        exact .done (hidle hfault)
      have hall := h.goes_on hfault [] hrest
      rw [List.append_nil, List.append_nil] at hall
      exact ⟨decoded.state, hall, fun _ => rfl⟩
  | some fault =>
      obtain ⟨last, hlast⟩ := h.stops hfault []
      rw [List.append_nil] at hlast
      exact ⟨last, hlast, fun h => absurd h (by simp)⟩

end Accounts

/-! ## Feeding pieces -/

theorem more_idle (hd : decoder.IsStreaming absorb)
    (decoded : Decoded σ α) (piece : Bytes) (h : (decoder.more decoded piece).fault? = none) :
    decoder.decode (decoder.more decoded piece).state []
      = (.ok none, (decoder.more decoded piece).state) := by
  have hdrained := drain_drained hd decoded.state piece
  rw [show (decoder.drain decoded.state piece).fault? = none from h] at hdrained
  exact hdrained.decode_last hd

theorem feedFrom_accounts (hd : decoder.IsStreaming absorb) {start : σ} :
    ∀ (pieces : List Bytes) (arrived : Bytes) (decoded : Decoded σ α),
      Accounts decoder absorb start arrived [] decoded →
      (decoded.fault? = none → decoder.decode decoded.state [] = (.ok none, decoded.state)) →
      Accounts decoder absorb start (arrived ++ pieces.flatten) [] (decoder.feedFrom decoded pieces)
        ∧ ((decoder.feedFrom decoded pieces).fault? = none →
            decoder.decode (decoder.feedFrom decoded pieces).state []
              = (.ok none, (decoder.feedFrom decoded pieces).state)) := by
  intro pieces
  induction pieces with
  | nil =>
      intro arrived decoded h hidle
      rw [List.flatten_nil, List.append_nil]
      exact ⟨h, hidle⟩
  | cons piece pieces ih =>
      intro arrived decoded h hidle
      rw [feedFrom, List.flatten_cons]
      split
      · rename_i hfault
        obtain ⟨fault, hfault⟩ := Option.isSome_iff_exists.1 hfault
        refine ⟨⟨fun hnone => ?_, fun hsome more => ?_⟩, fun hnone => ?_⟩
        · rw [hfault] at hnone
          exact absurd hnone (by simp)
        · rw [List.append_assoc]
          exact h.stops hsome _
        · rw [hfault] at hnone
          exact absurd hnone (by simp)
      · rename_i hfault
        have hnone : decoded.fault? = none := by simpa using hfault
        rw [← List.append_assoc]
        refine ih (arrived ++ piece) (decoder.more decoded piece) ?_ (more_idle hd decoded piece)
        exact (h.arrive piece).more hd hnone

/-- Feeding pieces is draining their bytes at once. -/
theorem feed_drained (hd : decoder.IsStreaming absorb) {state : σ}
    (hidle : decoder.decode state [] = (.ok none, state)) (pieces : List Bytes) :
    ∃ last, Drained decoder (absorb state pieces.flatten) (decoder.feed state pieces).items
        (decoder.feed state pieces).fault? last
      ∧ ((decoder.feed state pieces).fault? = none → last = (decoder.feed state pieces).state) := by
  obtain ⟨haccounts, hlast⟩ :=
    feedFrom_accounts hd pieces [] ⟨[], none, state⟩ (.initial state) (fun _ => hidle)
  exact haccounts.drained hd hlast

theorem feed_idle (hd : decoder.IsStreaming absorb) {state : σ}
    (hidle : decoder.decode state [] = (.ok none, state)) (pieces : List Bytes)
    (h : (decoder.feed state pieces).fault? = none) :
    decoder.decode (decoder.feed state pieces).state []
      = (.ok none, (decoder.feed state pieces).state) :=
  (feedFrom_accounts hd pieces [] ⟨[], none, state⟩ (.initial state) (fun _ => hidle)).2 h

/-- Two ways to cut the same bytes give the same items, the same fault and, without a fault, the
same state. -/
theorem feed_eq_of_flatten_eq (hd : decoder.IsStreaming absorb) {state : σ}
    (hidle : decoder.decode state [] = (.ok none, state)) {pieces pieces' : List Bytes}
    (h : pieces.flatten = pieces'.flatten) :
    (decoder.feed state pieces).items = (decoder.feed state pieces').items
      ∧ (decoder.feed state pieces).fault? = (decoder.feed state pieces').fault?
      ∧ ((decoder.feed state pieces).fault? = none →
          (decoder.feed state pieces).state = (decoder.feed state pieces').state) := by
  obtain ⟨last, hlast, hstate⟩ := feed_drained hd hidle pieces
  obtain ⟨last', hlast', hstate'⟩ := feed_drained hd hidle pieces'
  rw [h] at hlast
  obtain ⟨hitems, hfault, rfl⟩ := hlast.unique hlast'
  refine ⟨hitems, hfault, fun hnone => ?_⟩
  rw [← hstate hnone, ← hstate' (hfault ▸ hnone)]

/-! ## Bytes that arrive while items are asked for -/

/-- What happens at a reader. -/
inductive Arrival
  /-- Bytes arrive and wait to be handed over. -/
  | bytes (piece : Bytes)
  /-- The decoder is handed what waits and asked for an item. -/
  | ask
  deriving DecidableEq, Repr

def Arrival.brings : Arrival → Bytes
  | bytes piece => piece
  | ask => []

/-- A reader between two events. -/
structure Inbox (σ α : Type) where
  /-- Bytes that have arrived and wait to be handed over. -/
  unread : Bytes
  decoded : Decoded σ α

/-- One event.  After a fault the decoder is not asked any more. -/
def meet (decoder : Decoder σ α) (inbox : Inbox σ α) : Arrival → Inbox σ α
  | .bytes piece => { inbox with unread := inbox.unread ++ piece }
  | .ask =>
    if inbox.decoded.fault?.isSome then inbox
    else match decoder.decode inbox.decoded.state inbox.unread with
      | (.error fault, state) => ⟨[], ⟨inbox.decoded.items, some fault, state⟩⟩
      | (.ok none, state) => ⟨[], ⟨inbox.decoded.items, none, state⟩⟩
      | (.ok (some item), state) => ⟨[], ⟨inbox.decoded.items ++ [item], none, state⟩⟩

/-- A reader goes through the events and at last asks for items until it needs more bytes. -/
def play (decoder : Decoder σ α) (state : σ) (arrivals : List Arrival) : Decoded σ α :=
  let inbox := arrivals.foldl decoder.meet ⟨[], ⟨[], none, state⟩⟩
  if inbox.decoded.fault?.isSome then inbox.decoded else decoder.more inbox.decoded inbox.unread

/-- One event keeps the account.  After a fault some bytes may be left unread for good. -/
theorem meet_accounts
    (hd : decoder.IsStreaming absorb) {start : σ} {arrived : Bytes} {inbox : Inbox σ α}
    (h : Accounts decoder absorb start arrived inbox.unread inbox.decoded) (arrival : Arrival) :
    Accounts decoder absorb start (arrived ++ arrival.brings) (decoder.meet inbox arrival).unread
      (decoder.meet inbox arrival).decoded := by
  cases arrival with
  | bytes piece => exact h.arrive piece
  | ask =>
      rw [Arrival.brings, List.append_nil, meet]
      split
      · exact h
      · rename_i hfault
        have hnone : inbox.decoded.fault? = none := by simpa using hfault
        have hdecode := hd.decode_eq inbox.decoded.state inbox.unread
        split
        · rename_i fault next heq
          rw [heq] at hdecode
          refine ⟨fun hn => absurd hn (by simp), fun hsome more => ?_⟩
          obtain ⟨other, hother⟩ := hd.decode_error hdecode.symm more
          rw [← hd.absorb_append] at hother
          obtain rfl := Option.some.inj hsome
          have hall := h.goes_on hnone more (.fault hother)
          rw [List.append_nil] at hall
          exact ⟨other, hall⟩
        · rename_i next heq
          rw [heq] at hdecode
          obtain rfl := hd.decode_none hdecode.symm
          refine ⟨fun _ more items fault? last hmore => ?_, fun hsome => absurd hsome (by simp)⟩
          rw [List.nil_append, ← hd.absorb_append] at hmore
          exact h.goes_on hnone more hmore
        · rename_i item next heq
          rw [heq] at hdecode
          refine ⟨fun _ more items fault? last hmore => ?_, fun hsome => absurd hsome (by simp)⟩
          rw [List.nil_append] at hmore
          have hitem := hd.decode_some hdecode.symm more
          rw [← hd.absorb_append] at hitem
          have hall := h.goes_on hnone more (.item hitem hmore)
          rw [List.append_assoc, List.singleton_append]
          exact hall

theorem foldl_meet_accounts (hd : decoder.IsStreaming absorb) {start : σ} :
    ∀ (arrivals : List Arrival) (arrived : Bytes) (inbox : Inbox σ α),
      Accounts decoder absorb start arrived inbox.unread inbox.decoded →
      Accounts decoder absorb start (arrived ++ arrivals.flatMap Arrival.brings)
        (arrivals.foldl decoder.meet inbox).unread (arrivals.foldl decoder.meet inbox).decoded := by
  intro arrivals
  induction arrivals with
  | nil =>
      intro arrived inbox h
      rw [List.flatMap_nil, List.append_nil]
      exact h
  | cons arrival arrivals ih =>
      intro arrived inbox h
      rw [List.flatMap_cons, List.foldl_cons, ← List.append_assoc]
      exact ih (arrived ++ arrival.brings) (decoder.meet inbox arrival) (meet_accounts hd h arrival)

/-- However arrivals and questions are mixed, a reader that is drained at last has drained all the
bytes at once. -/
theorem play_drained (hd : decoder.IsStreaming absorb) (state : σ) (arrivals : List Arrival) :
    ∃ last, Drained decoder (absorb state (arrivals.flatMap Arrival.brings))
        (decoder.play state arrivals).items (decoder.play state arrivals).fault? last
      ∧ ((decoder.play state arrivals).fault? = none →
          last = (decoder.play state arrivals).state) := by
  have h := foldl_meet_accounts hd arrivals [] ⟨[], ⟨[], none, state⟩⟩ (.initial state)
  rw [List.nil_append] at h
  rw [play]
  split
  · rename_i hfault
    obtain ⟨fault, hfault⟩ := Option.isSome_iff_exists.1 hfault
    obtain ⟨last, hlast⟩ := h.stops hfault []
    rw [List.append_nil] at hlast
    refine ⟨last, hfault ▸ hlast, fun hnone => ?_⟩
    rw [hfault] at hnone
    exact absurd hnone (by simp)
  · rename_i hfault
    exact (h.more hd (by simpa using hfault)).drained hd (more_idle hd _ _)

/-! ## A reader who acts on what it gets -/

/-- A decoder whose owner changes it after each item, by the items so far. -/
def steered (decoder : Decoder σ α) (steer : List α → σ → σ) : Decoder (σ × List α) α where
  pending := fun state => decoder.pending state.1
  decode := fun state incoming =>
    match decoder.decode state.1 incoming with
    | (.ok (some item), next) =>
      (.ok (some item), steer (state.2 ++ [item]) next, state.2 ++ [item])
    | (.ok none, next) => (.ok none, next, state.2)
    | (.error fault, next) => (.error fault, next, state.2)

/-- A change that may as well be made before bytes arrive as after leaves the laws in place. -/
theorem IsStreaming.steered (hd : decoder.IsStreaming absorb) {steer : List α → σ → σ}
    (habsorb : ∀ sofar state bytes, steer sofar (absorb state bytes)
      = absorb (steer sofar state) bytes)
    (hpending : ∀ sofar state, decoder.pending (steer sofar state) = decoder.pending state) :
    (decoder.steered steer).IsStreaming (fun state bytes => (absorb state.1 bytes, state.2)) where
  absorb_nil := fun state => by rw [hd.absorb_nil]
  absorb_append := fun state front back => by rw [hd.absorb_append]
  pending_absorb := fun state bytes => hd.pending_absorb state.1 bytes
  decode_eq := fun state bytes => by
    simp only [Decoder.steered]
    rw [hd.decode_eq]
  decode_some := by
    intro state item next h more
    simp only [Decoder.steered] at h ⊢
    split at h
    · rename_i found other heq
      obtain ⟨hitem, rfl⟩ := Prod.mk.inj h
      obtain rfl := Option.some.inj (Except.ok.inj hitem)
      rw [hd.decode_some heq more]
      simp only [habsorb]
    · exact absurd h (by simp)
    · exact absurd h (by simp)
  decode_error := by
    intro state fault next h more
    simp only [Decoder.steered] at h ⊢
    split at h
    · exact absurd h (by simp)
    · exact absurd h (by simp)
    · rename_i found other heq
      obtain rfl := Except.error.inj (Prod.mk.inj h).1
      obtain ⟨last, hlast⟩ := hd.decode_error heq more
      exact ⟨(last, state.2), by rw [hlast]⟩
  decode_none := by
    intro state next h
    simp only [Decoder.steered] at h
    split at h
    · exact absurd h (by simp)
    · rename_i other heq
      obtain rfl := hd.decode_none heq
      exact (Prod.mk.inj h).2.symm
    · exact absurd h (by simp)
  pending_lt := by
    intro state item next h
    simp only [Decoder.steered] at h ⊢
    split at h
    · rename_i found other heq
      obtain rfl := (Prod.mk.inj h).2
      rw [hpending]
      exact hd.pending_lt heq
    · exact absurd h (by simp)
    · exact absurd h (by simp)

end PhaseWire.Decoder
