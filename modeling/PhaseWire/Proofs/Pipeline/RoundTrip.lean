import PhaseWire.Proofs.Compression.Lz4
import PhaseWire.Proofs.Pipeline.Change

/-
# Payloads arrive as they were sent

A writer sends payloads and changes its stages in between; a reader makes
the same changes at the same places, counted in frames.  They are in step
(`InStep`) when the reader's register for what comes in is the writer's for
what goes out, the other stages are the same, and nothing is staged at the
reader.  A frame and a change both keep them in step, so a reader that had
all bytes at once would read what was sent; and since a reader may as well
have had them at once, it does so however they arrive, even when bytes of
frames behind a change were there long before it.
-/

namespace PhaseWire.Pipeline

/-! ## A writer and its reader -/

/-- The reader is where the writer is, and has nothing staged. -/
structure InStep (writer reader : Pipeline) : Prop where
  maxBody : reader.maxBody = writer.maxBody
  compressor? : reader.compressor? = writer.compressor?
  /-- What comes in is opened with the register that sealed it. -/
  register : reader.cipher?.map Cipher.incoming = writer.cipher?.map Cipher.outgoing
  staged : reader.staged = []

variable {writer reader next : Pipeline}

theorem InStep.kinds (h : InStep writer reader) : writer.kinds = reader.kinds := by
  have hcipher : reader.cipher?.isSome = writer.cipher?.isSome := by
    rw [← Option.isSome_map (f := Cipher.incoming), h.register, Option.isSome_map]
  rw [Pipeline.kinds, Pipeline.kinds, hcipher, h.compressor?]

theorem InStep.new (maxBody : Nat) : InStep (new maxBody) (new maxBody) :=
  ⟨rfl, rfl, rfl, rfl⟩

/-- A cipher stage that a change installs is a new one, made from a key. -/
def Change.IsFresh : Change → Prop
  | .insert _ (.cipher cipher) => ∃ key, Cipher.ofKey key = .ok cipher
  | _ => True

/-- A new cipher has the same register for both directions. -/
theorem registers_eq_of_ofKey {key : Bytes} {cipher : Cipher} (h : Cipher.ofKey key = .ok cipher) :
    cipher.incoming = cipher.outgoing := by
  rw [Cipher.ofKey] at h
  split at h
  · obtain rfl := Except.ok.inj h
    rfl
  · exact absurd h (by simp)

/-- A change that both make keeps them in step. -/
theorem InStep.change (h : InStep writer reader) {change : Change} (hfresh : change.IsFresh) :
    InStep (writer.change change) (reader.change change) := by
  rcases change_cases h.kinds change with
    ⟨hone, htwo⟩ | ⟨place, cipher, rfl, -, hone, htwo⟩ | ⟨update, hone, htwo⟩
  · rw [hone, htwo]
    exact h
  · obtain ⟨key, hkey⟩ := hfresh
    rw [hone, htwo]
    refine ⟨h.maxBody, h.compressor?, ?_, ?_⟩
    · simp only [install, h.staged, Cipher.decrypt_nil, Option.map_some]
      exact congrArg some (registers_eq_of_ofKey hkey)
    · simp only [install, h.staged, Cipher.decrypt_nil]
  · rw [hone, htwo]
    exact ⟨h.maxBody, congrArg update h.compressor?, h.register, h.staged⟩

/-! ## One frame -/

theorem encode_eq_ok {payload : Bytes} {sent : Sent}
    (h : writer.encode payload = .ok (sent, next)) :
    ∃ body frame, writer.wrap payload = .ok (body, sent.compressed)
      ∧ Frame.encode writer.maxBody body = .ok frame
      ∧ (sent.wire, next) = writer.sealFrame frame := by
  simp only [encode] at h
  split at h
  · cases h
  · rename_i body compressed hwrap
    split at h
    · cases h
    · rename_i frame hframe
      obtain ⟨rfl, rfl⟩ := Prod.mk.inj (Except.ok.inj h)
      exact ⟨body, frame, hwrap, hframe, rfl⟩

/-- A payload of the size that the installed compressor accepts, if there is one. -/
def Accepts (pipeline : Pipeline) (payload : Bytes) : Prop :=
  payload.length < 2 ^ 31
    ∧ ∀ compressor ∈ pipeline.compressor?, payload.length ≤ compressor.maxBody

/-- The library of the installed compressor, if there is one, gives back what it compressed. -/
def IsLossless (pipeline : Pipeline) : Prop :=
  ∀ compressor ∈ pipeline.compressor?,
    compressor.library.Lossless compressor.method compressor.level

theorem unwrap_wrap (h : reader.compressor? = writer.compressor?) {payload body : Bytes}
    {compressed : Bool} (haccepts : writer.Accepts payload) (hlossless : writer.IsLossless)
    (hwrap : writer.wrap payload = .ok (body, compressed)) :
    reader.unwrap body = .ok payload := by
  obtain ⟨hsize, hmost⟩ := haccepts
  rw [unwrap, h]
  rw [wrap] at hwrap
  cases hcompressor : writer.compressor? with
  | none =>
      rw [hcompressor] at hwrap
      cases hwrap
      rfl
  | some compressor =>
      rw [hcompressor] at hwrap
      exact Compressor.decode_encode (hlossless compressor hcompressor) hsize
        (hmost compressor hcompressor) hwrap

/-- What was sealed is opened, and the registers stay equal. -/
theorem InStep.feed_sealFrame (h : InStep writer reader) (frame : Bytes) :
    (reader.feed (writer.sealFrame frame).1).staged = frame
      ∧ InStep (writer.sealFrame frame).2
          { reader.feed (writer.sealFrame frame).1 with staged := [] } := by
  obtain ⟨outgoing?, maxBody, compressor?, unused⟩ := writer
  obtain ⟨incoming?, _, _, staged⟩ := reader
  obtain ⟨rfl, rfl, hregister, rfl⟩ := h
  cases outgoing? with
  | none =>
      obtain rfl : incoming? = none := by simpa using hregister
      exact ⟨rfl, rfl, rfl, rfl, rfl⟩
  | some writing =>
      obtain ⟨reading, rfl, hsame⟩ : ∃ reading, incoming? = some reading
          ∧ reading.incoming = writing.outgoing := by simpa using hregister
      have hopen := Feedback.stream_open_seal frame writing.outgoing
      simp only [sealFrame, feed, Cipher.encrypt, Cipher.decrypt, hsame, hopen]
      exact ⟨rfl, rfl, rfl, rfl, rfl⟩

theorem sealFrame_maxBody (writer : Pipeline) (frame : Bytes) :
    (writer.sealFrame frame).2.maxBody = writer.maxBody := by
  rw [sealFrame]
  split <;> rfl

theorem sealFrame_compressor? (writer : Pipeline) (frame : Bytes) :
    (writer.sealFrame frame).2.compressor? = writer.compressor? := by
  rw [sealFrame]
  split <;> rfl

theorem InStep.next_feed (h : InStep writer reader) (hmax : writer.maxBody < 2 ^ 31)
    {payload : Bytes} (haccepts : writer.Accepts payload) (hlossless : writer.IsLossless)
    {sent : Sent} (hsent : writer.encode payload = .ok (sent, next)) :
    ∃ reader', (reader.feed sent.wire).next = (.ok (some payload), reader')
      ∧ InStep next reader' ∧ next.maxBody = writer.maxBody := by
  obtain ⟨body, frame, hwrap, hframe, hseal⟩ := encode_eq_ok hsent
  obtain ⟨hstaged, hstep⟩ := h.feed_sealFrame frame
  rw [← hseal] at hstaged hstep
  have hdecode := Frame.decode_encode hmax hframe []
  rw [List.append_nil] at hdecode
  refine ⟨_, next_some_iff.2 ⟨body, [], ?_, ?_, rfl⟩, hstep, ?_⟩
  · rw [feed_maxBody, h.maxBody, hstaged, hdecode]
  · exact unwrap_wrap ((feed_compressor? ..).trans h.compressor?) haccepts hlossless hwrap
  · have hsame := sealFrame_maxBody writer frame
    rwa [← hseal] at hsame

/-! ## All that a writer does -/

/-- What a writer does. -/
inductive Action
  | send (payload : Bytes)
  | change (change : Change)

def Action.payload? : Action → Option Bytes
  | send payload => some payload
  | change _ => none

structure Dispatch where
  /-- The stages that it went through. -/
  through : Pipeline
  payload : Bytes
  wire : Bytes

/-- The frames of a writer that goes through the actions, unless one cannot be encoded. -/
def transmit : Pipeline → List Action → Except Fault (List Dispatch)
  | _, [] => .ok []
  | writer, .change change :: actions => transmit (writer.change change) actions
  | writer, .send payload :: actions =>
    match writer.encode payload with
    | .error fault => .error fault
    | .ok (sent, next) =>
      (transmit next actions).map fun frames => ⟨writer, payload, sent.wire⟩ :: frames

theorem transmit_send_eq_ok {payload : Bytes} {actions : List Action} {frames : List Dispatch}
    (h : writer.transmit (.send payload :: actions) = .ok frames) :
    ∃ sent next rest, writer.encode payload = .ok (sent, next) ∧ next.transmit actions = .ok rest
      ∧ frames = ⟨writer, payload, sent.wire⟩ :: rest := by
  rw [transmit] at h
  split at h
  · exact absurd h (by simp)
  · rename_i sent next hencode
    cases hrest : next.transmit actions with
    | error fault =>
        rw [hrest] at h
        exact absurd h (by simp [Except.map])
    | ok rest =>
        rw [hrest] at h
        exact ⟨sent, next, rest, hencode, hrest, (Except.ok.inj h).symm⟩

/-- What holds of the compressors that come in, whatever their threshold, holds of all that a frame
goes through. -/
theorem forall_through {P : Compressor → Prop}
    (hretune : ∀ compressor threshold, P compressor → P { compressor with threshold }) :
    ∀ {actions : List Action} {frames : List Dispatch} {writer : Pipeline},
      (∀ place compressor,
        Action.change (.insert place (.compression compressor)) ∈ actions → P compressor) →
      (∀ compressor ∈ writer.compressor?, P compressor) →
      writer.transmit actions = .ok frames →
      ∀ frame ∈ frames, ∀ compressor ∈ frame.through.compressor?, P compressor := by
  intro actions
  induction actions with
  | nil =>
      intro frames writer _ _ hsent frame hframe
      obtain rfl := Except.ok.inj hsent
      exact absurd hframe List.not_mem_nil
  | cons action actions ih =>
      intro frames writer hinstalled hwriter hsent
      have hlater := fun place compressor hmem =>
        hinstalled place compressor (List.mem_cons_of_mem _ hmem)
      cases action with
      | change change =>
          refine ih hlater (change_compressor hretune ?_ hwriter) hsent
          rintro place compressor rfl
          exact hinstalled place compressor (List.mem_cons_self ..)
      | send payload =>
          obtain ⟨sent, next, rest, hencode, hrest, rfl⟩ := transmit_send_eq_ok hsent
          obtain ⟨body, frame, -, -, hseal⟩ := encode_eq_ok hencode
          have hsame : next.compressor? = writer.compressor? := by
            have := sealFrame_compressor? writer frame
            rwa [← hseal] at this
          rintro frame hframe
          rcases List.mem_cons.1 hframe with rfl | hframe
          · exact hwriter
          · exact ih hlater (hsame ▸ hwriter) hrest frame hframe

/-- The changes between a frame and the one behind it, by how many frames stand before them. -/
def changesAt : List Action → Nat → List Change
  | [], _ => []
  | .change change :: actions, 0 => change :: changesAt actions 0
  | .change _ :: actions, count + 1 => changesAt actions (count + 1)
  | .send _ :: _, 0 => []
  | .send _ :: actions, count + 1 => changesAt actions count

def changeAll (pipeline : Pipeline) (changes : List Change) : Pipeline :=
  changes.foldl change pipeline

/-- A reader that makes the changes of the actions, each behind as many frames as the writer. -/
def replaying (actions : List Action) : Decoder (Pipeline × List Bytes) Bytes :=
  decoder.steered fun sofar reader => reader.changeAll (changesAt actions sofar.length)

/-- A reader before the first frame. -/
def poised (maxBody : Nat) (actions : List Action) : Pipeline × List Bytes :=
  ((new maxBody).changeAll (changesAt actions 0), [])

theorem changeAll_feed (bytes : Bytes) : ∀ (changes : List Change) (pipeline : Pipeline),
    (pipeline.feed bytes).changeAll changes = (pipeline.changeAll changes).feed bytes := by
  intro changes
  induction changes with
  | nil => intro pipeline; rfl
  | cons change changes ih =>
      intro pipeline
      rw [changeAll, List.foldl_cons, change_feed]
      exact ih (pipeline.change change)

theorem changeAll_pending : ∀ (changes : List Change) (pipeline : Pipeline),
    (pipeline.changeAll changes).pending = pipeline.pending := by
  intro changes
  induction changes with
  | nil => intro pipeline; rfl
  | cons change changes ih =>
      intro pipeline
      rw [changeAll, List.foldl_cons, ← change_pending pipeline change]
      exact ih (pipeline.change change)

def feedReplaying (state : Pipeline × List Bytes) (bytes : Bytes) : Pipeline × List Bytes :=
  (state.1.feed bytes, state.2)

theorem replaying_streaming (actions : List Action) :
    (replaying actions).IsStreaming feedReplaying :=
  streaming.steered (fun _ pipeline bytes => changeAll_feed bytes _ pipeline)
    (fun _ pipeline => changeAll_pending _ pipeline)

theorem drained_of_staged_eq_nil {steer : List Bytes → Pipeline → Pipeline}
    (h : reader.staged = []) (sofar : List Bytes) :
    (decoder.steered steer).Drained (reader, sofar) [] none (reader, sofar) := by
  have hframe : Frame.decode reader.maxBody reader.staged = .ok none := by
    rw [h, Frame.decode_nil]
  refine .done ?_
  simp only [Decoder.steered, decoder, decode_nil, next_none_iff.2 ⟨hframe, rfl⟩]

/-- A reader in step drains what the writer sends from here on.  `steer` makes the changes behind
the frames to come; those before the next one are made. -/
theorem InStep.drained {steer : List Bytes → Pipeline → Pipeline} :
    ∀ {actions : List Action} {frames : List Dispatch} {writer reader : Pipeline}
      {sofar : List Bytes}, InStep writer reader → writer.maxBody < 2 ^ 31 →
      (∀ change, Action.change change ∈ actions → change.IsFresh) →
      writer.transmit actions = .ok frames →
      (∀ frame ∈ frames, frame.through.Accepts frame.payload ∧ frame.through.IsLossless) →
      (∀ before count, before.length = sofar.length + (count + 1) →
        steer before = fun state => state.changeAll (changesAt actions (count + 1))) →
      ∃ last, (decoder.steered steer).Drained
          ((reader.changeAll (changesAt actions 0)).feed (frames.flatMap Dispatch.wire), sofar)
          (actions.filterMap Action.payload?) none last
        ∧ last.1.pending = 0 := by
  intro actions
  induction actions with
  | nil =>
      intro frames writer reader sofar h _ _ hsent _ _
      obtain rfl := Except.ok.inj hsent
      rw [List.flatMap_nil, feed_nil]
      exact ⟨_, drained_of_staged_eq_nil h.staged sofar, congrArg List.length h.staged⟩
  | cons action actions ih =>
      intro frames writer reader sofar h hmax hfresh hsent hframes hsteer
      cases action with
      | change change =>
          have hnext := h.change (hfresh change (List.mem_cons_self ..))
          refine ih hnext ?_ (fun other hother => hfresh other (List.mem_cons_of_mem _ hother))
            hsent hframes (fun before count hcount => hsteer before count hcount)
          rw [change_maxBody]
          exact hmax
      | send payload =>
          obtain ⟨sent, next, rest, hencode, hrest, rfl⟩ := transmit_send_eq_ok hsent
          obtain ⟨haccepts, hlossless⟩ := hframes _ (List.mem_cons_self ..)
          obtain ⟨reader', htaken, hstep, hsame⟩ := h.next_feed hmax haccepts hlossless hencode
          have hlater : ∀ before count, before.length = (sofar ++ [payload]).length + (count + 1) →
              steer before = fun state => state.changeAll (changesAt actions (count + 1)) := by
            intro before count hcount
            refine hsteer before (count + 1) ?_
            rw [hcount, List.length_append, List.length_singleton]
            omega
          obtain ⟨last, hlast, hpending⟩ := ih hstep (hsame ▸ hmax)
            (fun other hother => hfresh other (List.mem_cons_of_mem _ hother)) hrest
            (fun frame hframe => hframes frame (List.mem_cons_of_mem _ hframe)) hlater
          -- the first frame comes off; its changes are made with the rest already fed
          have hfirst := next_feed_some htaken (rest.flatMap Dispatch.wire)
          rw [← feed_append] at hfirst
          have hnow := hsteer (sofar ++ [payload]) 0 (by rw [List.length_append]; rfl)
          refine ⟨last, .item ?_ hlast, hpending⟩
          simp only [Decoder.steered, decoder, decode_nil, changesAt, changeAll, List.foldl_nil,
            List.flatMap_cons, hfirst, hnow]
          exact congrArg (fun state => (_, state, _)) (changeAll_feed ..)

/-- However the bytes of the frames are cut, and whenever the reader asks in between, it reads what
the writer sent, without a fault, and keeps no byte. -/
theorem play_eq_payloads {maxBody : Nat} (hmax : maxBody < 2 ^ 31) {actions : List Action}
    (hfresh : ∀ change, Action.change change ∈ actions → change.IsFresh) {frames : List Dispatch}
    (hsent : (new maxBody).transmit actions = .ok frames)
    (haccepts : ∀ frame ∈ frames, frame.through.Accepts frame.payload)
    (hlossless : ∀ frame ∈ frames, frame.through.IsLossless) {arrivals : List Decoder.Arrival}
    (harrivals : arrivals.flatMap Decoder.Arrival.brings = frames.flatMap Dispatch.wire) :
    let read := (replaying actions).play (poised maxBody actions) arrivals
    read.items = actions.filterMap Action.payload? ∧ read.fault? = none
      ∧ read.state.1.pending = 0 := by
  intro read
  have hsteer : ∀ (before : List Bytes) (count : Nat),
      before.length = ([] : List Bytes).length + (count + 1) →
      (fun state => changeAll state (changesAt actions before.length))
        = fun state => changeAll state (changesAt actions (count + 1)) := by
    intro before count hcount
    rw [hcount, List.length_nil, Nat.zero_add]
  obtain ⟨last, hlast, hpending⟩ := (InStep.new maxBody).drained hmax hfresh hsent
    (fun frame hframe => ⟨haccepts frame hframe, hlossless frame hframe⟩) hsteer
  obtain ⟨found, hfound, hend⟩ :=
    Decoder.play_drained (replaying_streaming actions) (poised maxBody actions) arrivals
  rw [harrivals] at hfound
  obtain ⟨hitems, hfault, rfl⟩ := hfound.unique hlast
  refine ⟨hitems, hfault, ?_⟩
  rw [← hend hfault]
  exact hpending

/-- A payload in the clear, one behind a cipher, one that is compressed as well, and one that is not
any more. -/
def switching : List Action :=
  let key : Bytes := List.replicate 16 7
  [.send [1, 2, 3],
    .change (.insert (.before "framer") (.cipher ⟨.ofKey key, .ofKey key⟩)),
    .send [],
    .change (.insert (.after "framer") (.compression (.new 4 .lz4 0))),
    .send [5, 5, 5, 5, 5, 5, 5, 5, 5],
    .change (.remove "compression"),
    .send [6]]

theorem switching_frames : ∃ frames, (new 100).transmit switching = .ok frames
    ∧ ∀ frame ∈ frames, frame.payload.length ≤ 9 ∧ ∀ compressor ∈ frame.through.compressor?,
      compressor.maxBody = Limit.uncompressed
        ∧ compressor.library.Lossless compressor.method compressor.level := by
  have hcheck : (match (new 100).transmit switching with
      | .ok frames => frames.all fun frame => frame.payload.length ≤ 9
      | .error _ => false) = true := by
    decide +kernel
  split at hcheck
  · rename_i frames heq
    have hshort : ∀ frame ∈ frames, frame.payload.length ≤ 9 := by simpa using hcheck
    have hthrough := forall_through (P := fun compressor =>
        compressor.maxBody = Limit.uncompressed
          ∧ compressor.library.Lossless compressor.method compressor.level)
      (fun _ _ h => h) (fun place compressor hmem => ?_) (fun _ h => absurd h (Option.not_mem_none _))
      heq
    · exact ⟨frames, heq, fun frame hframe => ⟨hshort frame hframe, hthrough frame hframe⟩⟩
    · simp only [switching, List.mem_cons, Action.change.injEq, Change.insert.injEq, reduceCtorEq,
        Stage.compression.injEq, and_false, false_or, List.not_mem_nil, or_false] at hmem
      obtain ⟨-, rfl⟩ := hmem
      exact ⟨rfl, Method.lossless_lz4 0⟩
  · cases hcheck

/-- The first piece ends inside of what is encrypted, before the reader is asked for anything. -/
theorem play_eq_payloads_of_switching : ∃ frames, (new 100).transmit switching = .ok frames ∧
    let wire := frames.flatMap Dispatch.wire
    let read := (replaying switching).play (poised 100 switching)
      [.bytes (wire.take 7), .ask, .bytes (wire.drop 7), .ask]
    read.items = [[1, 2, 3], [], [5, 5, 5, 5, 5, 5, 5, 5, 5], [6]] ∧ read.fault? = none := by
  obtain ⟨frames, hsent, hframes⟩ := switching_frames
  have hfresh : ∀ change, Action.change change ∈ switching → change.IsFresh := by
    intro change hchange
    simp only [switching, List.mem_cons, Action.change.injEq, reduceCtorEq, false_or,
      List.not_mem_nil, or_false] at hchange
    rcases hchange with rfl | rfl | rfl
    · exact ⟨List.replicate 16 7, rfl⟩
    · exact True.intro
    · exact True.intro
  have haccepts : ∀ frame ∈ frames, frame.through.Accepts frame.payload := by
    intro frame hframe
    obtain ⟨hsize, hcompressor⟩ := hframes frame hframe
    refine ⟨by omega, fun compressor hmem => ?_⟩
    rw [(hcompressor compressor hmem).1]
    exact Nat.le_trans hsize (by decide)
  have hlossless : ∀ frame ∈ frames, frame.through.IsLossless := by
    intro frame hframe compressor hmem
    exact ((hframes frame hframe).2 compressor hmem).2
  have harrivals : [.bytes ((frames.flatMap Dispatch.wire).take 7), .ask,
      .bytes ((frames.flatMap Dispatch.wire).drop 7), .ask].flatMap Decoder.Arrival.brings
        = frames.flatMap Dispatch.wire := by
    simp [Decoder.Arrival.brings]
  obtain ⟨hitems, hfault, -⟩ :=
    play_eq_payloads (by decide) hfresh hsent haccepts hlossless harrivals
  exact ⟨frames, hsent, hitems, hfault⟩

end PhaseWire.Pipeline
