import PhaseWire.Proofs.Cipher
import PhaseWire.Proofs.Codec.Streaming
import PhaseWire.Proofs.Frame

/-
# Changing a pipeline between two frames

A pipeline as a decoder of streams (`streaming`), and what may be done to
it between two frames.  A change that is refused leaves the pipeline as it
is.  Every change may as well be made before bytes arrive as after
(`change_feed`): the only one that touches staged bytes is a new cipher,
and what was staged before it passes the cipher then, what comes later
passes it on arrival.
-/

namespace PhaseWire.Pipeline

variable {pipeline next : Pipeline}

/-! ## Feeding -/

@[simp] theorem feed_maxBody (pipeline : Pipeline) (bytes : Bytes) :
    (pipeline.feed bytes).maxBody = pipeline.maxBody := by
  unfold feed
  split <;> rfl

@[simp] theorem feed_compressor? (pipeline : Pipeline) (bytes : Bytes) :
    (pipeline.feed bytes).compressor? = pipeline.compressor? := by
  unfold feed
  split <;> rfl

@[simp] theorem feed_isEncrypted (pipeline : Pipeline) (bytes : Bytes) :
    (pipeline.feed bytes).isEncrypted = pipeline.isEncrypted := by
  unfold feed
  split
  · rfl
  · rename_i cipher heq
    simp [isEncrypted, heq]

@[simp] theorem feed_kinds (pipeline : Pipeline) (bytes : Bytes) :
    (pipeline.feed bytes).kinds = pipeline.kinds := by
  unfold feed
  split
  · rfl
  · rename_i cipher heq
    simp [kinds, heq]

@[simp] theorem feed_nil (pipeline : Pipeline) : pipeline.feed [] = pipeline := by
  obtain ⟨cipher?, maxBody, compressor?, staged⟩ := pipeline
  cases cipher? with
  | none => simp [feed]
  | some cipher => simp [feed]

theorem feed_append (pipeline : Pipeline) (front back : Bytes) :
    pipeline.feed (front ++ back) = (pipeline.feed front).feed back := by
  obtain ⟨cipher?, maxBody, compressor?, staged⟩ := pipeline
  cases cipher? with
  | none => simp [feed]
  | some cipher => simp [feed, Cipher.decrypt_append]

theorem feed_pending (pipeline : Pipeline) (bytes : Bytes) :
    (pipeline.feed bytes).pending = pipeline.pending + bytes.length := by
  obtain ⟨cipher?, maxBody, compressor?, staged⟩ := pipeline
  cases cipher? with
  | none => simp [feed, pending]
  | some cipher => simp [feed, pending]

/-- What feeding adds to the staged bytes, it adds at their end. -/
theorem feed_staged (pipeline : Pipeline) (bytes : Bytes) :
    ∃ plain, (pipeline.feed bytes).staged = pipeline.staged ++ plain
      ∧ ∀ staged, ({ pipeline with staged } : Pipeline).feed bytes
          = { pipeline.feed bytes with staged := staged ++ plain } := by
  obtain ⟨cipher?, maxBody, compressor?, staged⟩ := pipeline
  cases cipher? with
  | none => exact ⟨bytes, rfl, fun _ => rfl⟩
  | some cipher => exact ⟨(cipher.decrypt bytes).1, rfl, fun _ => rfl⟩

/-! ## The next payload -/

theorem next_some_iff {payload : Bytes} :
    pipeline.next = (.ok (some payload), next) ↔
      ∃ body staged, Frame.decode pipeline.maxBody pipeline.staged = .ok (some (body, staged))
        ∧ pipeline.unwrap body = .ok payload ∧ { pipeline with staged } = next := by
  rw [Pipeline.next]
  rcases Frame.decode pipeline.maxBody pipeline.staged with fault | _ | ⟨body, staged⟩
  · simp
  · simp
  · cases hbody : pipeline.unwrap body with
    | error fault => simp [hbody, Except.map]
    | ok found => simp [hbody, Except.map, and_assoc]

theorem next_error_iff {fault : Fault} :
    pipeline.next = (.error fault, next) ↔
      (Frame.decode pipeline.maxBody pipeline.staged = .error fault ∧ pipeline = next)
      ∨ ∃ body staged, Frame.decode pipeline.maxBody pipeline.staged = .ok (some (body, staged))
        ∧ pipeline.unwrap body = .error fault ∧ { pipeline with staged } = next := by
  rw [Pipeline.next]
  rcases Frame.decode pipeline.maxBody pipeline.staged with found | _ | ⟨body, staged⟩
  · simp
  · simp
  · cases hbody : pipeline.unwrap body with
    | error found => simp [hbody, Except.map, and_assoc]
    | ok found => simp [hbody, Except.map]

theorem next_none_iff :
    pipeline.next = (.ok none, next) ↔
      Frame.decode pipeline.maxBody pipeline.staged = .ok none ∧ pipeline = next := by
  rw [Pipeline.next]
  rcases Frame.decode pipeline.maxBody pipeline.staged with fault | _ | ⟨body, staged⟩
  · simp
  · simp
  · cases hbody : pipeline.unwrap body with
    | error fault => simp [hbody, Except.map]
    | ok found => simp [hbody, Except.map]

theorem unwrap_feed (pipeline : Pipeline) (bytes body : Bytes) :
    (pipeline.feed bytes).unwrap body = pipeline.unwrap body := by
  rw [unwrap, unwrap, feed_compressor?]

/-- A payload that is there stays the first one, and what arrives comes behind it. -/
theorem next_feed_some {payload : Bytes} (h : pipeline.next = (.ok (some payload), next))
    (more : Bytes) : (pipeline.feed more).next = (.ok (some payload), next.feed more) := by
  obtain ⟨body, staged, hframe, hbody, rfl⟩ := next_some_iff.1 h
  obtain ⟨plain, hplain, hfeed⟩ := feed_staged pipeline more
  refine next_some_iff.2 ⟨body, staged ++ plain, ?_, ?_, (hfeed staged).symm⟩
  · rw [feed_maxBody, hplain]
    exact Frame.decode_append_some plain hframe
  · rw [unwrap_feed, hbody]

theorem next_feed_error {fault : Fault} (h : pipeline.next = (.error fault, next))
    (more : Bytes) : ∃ other, (pipeline.feed more).next = (.error fault, other) := by
  obtain ⟨plain, hplain, -⟩ := feed_staged pipeline more
  rcases next_error_iff.1 h with ⟨hframe, -⟩ | ⟨body, staged, hframe, hbody, -⟩
  · refine ⟨pipeline.feed more, next_error_iff.2 (.inl ⟨?_, rfl⟩)⟩
    rw [feed_maxBody, hplain]
    exact Frame.decode_append_error plain hframe
  · refine ⟨_, next_error_iff.2 (.inr ⟨body, staged ++ plain, ?_, ?_, rfl⟩)⟩
    · rw [feed_maxBody, hplain]
      exact Frame.decode_append_some plain hframe
    · rw [unwrap_feed, hbody]

theorem pending_lt_of_next_some {payload : Bytes}
    (h : pipeline.next = (.ok (some payload), next)) : next.pending < pipeline.pending := by
  obtain ⟨body, staged, hframe, -, rfl⟩ := next_some_iff.1 h
  have := Frame.decode_some_length hframe
  simp only [pending]
  omega

theorem next_maxBody (pipeline : Pipeline) : pipeline.next.2.maxBody = pipeline.maxBody := by
  rw [Pipeline.next]
  split <;> rfl

@[simp] theorem decode_nil (pipeline : Pipeline) : pipeline.decode [] = pipeline.next := by
  rw [decode, feed_nil]

theorem streaming : decoder.IsStreaming feed where
  absorb_nil := feed_nil
  absorb_append := feed_append
  pending_absorb := feed_pending
  decode_eq := fun pipeline bytes => (decode_nil (pipeline.feed bytes)).symm
  decode_some := by
    intro pipeline payload next h more
    simp only [decoder, decode_nil] at h ⊢
    exact next_feed_some h more
  decode_error := by
    intro pipeline fault next h more
    simp only [decoder, decode_nil] at h ⊢
    exact next_feed_error h more
  decode_none := by
    intro pipeline next h
    simp only [decoder, decode_nil] at h
    exact (next_none_iff.1 h).2.symm
  pending_lt := by
    intro pipeline payload next h
    simp only [decoder, decode_nil] at h
    exact pending_lt_of_next_some h

theorem pending_lt_of_next_none (h : pipeline.next = (.ok none, next)) :
    next.pending < VarNum.intBytes + next.maxBody := by
  obtain ⟨hframe, rfl⟩ := next_none_iff.1 h
  exact Frame.decode_none_length hframe

/-! ## Changes -/

inductive Change
  | insert (place : Place) (stage : Stage)
  | remove (name : String)
  | retune (threshold : Nat)

/-- What comes of a change, or why it is refused. -/
def attempt (pipeline : Pipeline) : Change → Except Fault Pipeline
  | .insert place stage => pipeline.insert place stage
  | .remove name => (pipeline.remove name).map Prod.snd
  | .retune threshold => .ok (pipeline.retune threshold)

/-- The pipeline after a change; one that is refused leaves it as it is. -/
def change (pipeline : Pipeline) (change : Change) : Pipeline :=
  match pipeline.attempt change with
  | .ok changed => changed
  | .error _ => pipeline

theorem contains_cipher (pipeline : Pipeline) :
    pipeline.contains StageKind.cipher.name = pipeline.cipher?.isSome := by
  obtain ⟨cipher?, maxBody, compressor?, staged⟩ := pipeline
  cases cipher? <;> cases compressor? <;> rfl

theorem contains_framer (pipeline : Pipeline) :
    pipeline.contains StageKind.framer.name = true := by
  obtain ⟨cipher?, maxBody, compressor?, staged⟩ := pipeline
  cases cipher? <;> cases compressor? <;> rfl

/-! ## What a change can do -/

section

variable {other : Pipeline}

theorem indexOf?_congr (h : pipeline.kinds = other.kinds) (name : String) :
    pipeline.indexOf? name = other.indexOf? name := by
  rw [indexOf?, indexOf?, names, names, h]

theorem contains_congr (h : pipeline.kinds = other.kinds) (name : String) :
    pipeline.contains name = other.contains name := by
  rw [contains, contains, indexOf?_congr h]

/-- Whether a stage is accepted depends on the installed kinds, and its own kind must be free. -/
theorem insertAt_cases (h : pipeline.kinds = other.kinds) (index : Nat) (stage : Stage) :
    (pipeline.contains stage.kind.name = false
        ∧ pipeline.insertAt index stage = .ok (pipeline.install stage)
        ∧ other.insertAt index stage = .ok (other.install stage))
      ∨ ∃ fault, pipeline.insertAt index stage = .error fault
        ∧ other.insertAt index stage = .error fault := by
  rw [insertAt, insertAt, ← contains_congr h, ← h]
  split
  · exact .inr ⟨_, rfl, rfl⟩
  · rename_i hfree
    split
    · exact .inl ⟨by simpa using hfree, rfl, rfl⟩
    · exact .inr ⟨_, rfl, rfl⟩

theorem insert_cases (h : pipeline.kinds = other.kinds) (place : Place) (stage : Stage) :
    (pipeline.contains stage.kind.name = false
        ∧ pipeline.insert place stage = .ok (pipeline.install stage)
        ∧ other.insert place stage = .ok (other.install stage))
      ∨ ∃ fault, pipeline.insert place stage = .error fault
        ∧ other.insert place stage = .error fault := by
  cases place with
  | before anchor =>
      rw [insert.eq_def, insert.eq_def]
      simp only [← indexOf?_congr h]
      cases pipeline.indexOf? anchor with
      | none => exact .inr ⟨_, rfl, rfl⟩
      | some index => exact insertAt_cases h index stage
  | after anchor =>
      rw [insert.eq_def, insert.eq_def]
      simp only [← indexOf?_congr h]
      cases pipeline.indexOf? anchor with
      | none => exact .inr ⟨_, rfl, rfl⟩
      | some index => exact insertAt_cases h (index + 1) stage

theorem remove_cases (h : pipeline.kinds = other.kinds) (name : String) :
    (∃ kind?, pipeline.remove name = .ok (kind?, pipeline) ∧ other.remove name = .ok (kind?, other))
      ∨ (∃ kind?, pipeline.remove name = .ok (kind?, { pipeline with compressor? := none })
        ∧ other.remove name = .ok (kind?, { other with compressor? := none }))
      ∨ ∃ fault, pipeline.remove name = .error fault ∧ other.remove name = .error fault := by
  rw [remove, remove, ← indexOf?_congr h, ← h]
  cases pipeline.indexOf? name with
  | none => exact .inl ⟨_, rfl, rfl⟩
  | some index =>
      dsimp only
      rcases pipeline.kinds[index]? with _ | kind
      · exact .inl ⟨_, rfl, rfl⟩
      · cases kind with
        | cipher => exact .inr (.inr ⟨_, rfl, rfl⟩)
        | framer => exact .inr (.inr ⟨_, rfl, rfl⟩)
        | compression => exact .inr (.inl ⟨_, rfl, rfl⟩)

/-- All that a change can do, and it does the same to two pipelines with the same kinds of stages:
nothing, install the first cipher, or change the compressor. -/
theorem change_cases (h : pipeline.kinds = other.kinds) (change : Change) :
    (pipeline.change change = pipeline ∧ other.change change = other)
      ∨ (∃ place cipher, change = .insert place (.cipher cipher)
        ∧ pipeline.contains StageKind.cipher.name = false
        ∧ pipeline.change change = pipeline.install (.cipher cipher)
        ∧ other.change change = other.install (.cipher cipher))
      ∨ ∃ update : Option Compressor → Option Compressor,
        pipeline.change change = { pipeline with compressor? := update pipeline.compressor? }
        ∧ other.change change = { other with compressor? := update other.compressor? } := by
  simp only [Pipeline.change]
  cases change with
  | insert place stage =>
      simp only [attempt]
      rcases insert_cases h place stage with ⟨hfree, hone, htwo⟩ | ⟨fault, hone, htwo⟩
      · rw [hone, htwo]
        cases stage with
        | cipher cipher => exact .inr (.inl ⟨place, cipher, rfl, hfree, rfl, rfl⟩)
        | framer maxBody =>
            rw [Stage.kind, contains_framer] at hfree
            exact absurd hfree (by simp)
        | compression compressor => exact .inr (.inr ⟨fun _ => some compressor, rfl, rfl⟩)
      · rw [hone, htwo]
        exact .inl ⟨rfl, rfl⟩
  | remove name =>
      simp only [attempt]
      rcases remove_cases h name with ⟨_, hone, htwo⟩ | ⟨_, hone, htwo⟩ | ⟨fault, hone, htwo⟩
      · rw [hone, htwo]
        exact .inl ⟨rfl, rfl⟩
      · rw [hone, htwo]
        exact .inr (.inr ⟨fun _ => none, rfl, rfl⟩)
      · rw [hone, htwo]
        exact .inl ⟨rfl, rfl⟩
  | retune threshold => exact .inr (.inr ⟨_, rfl, rfl⟩)

/-- What holds of the installed compressor and of one that comes in, whatever the threshold, holds
of the compressor after a change. -/
theorem change_compressor {P : Compressor → Prop}
    (hretune : ∀ compressor threshold, P compressor → P { compressor with threshold })
    {change : Change}
    (hinstalled : ∀ place compressor, change = .insert place (.compression compressor) →
      P compressor)
    (h : ∀ compressor ∈ pipeline.compressor?, P compressor) :
    ∀ compressor ∈ (pipeline.change change).compressor?, P compressor := by
  rw [Pipeline.change]
  cases change with
  | insert place stage =>
      simp only [attempt]
      rcases insert_cases (rfl : pipeline.kinds = pipeline.kinds) place stage with
        ⟨-, heq, -⟩ | ⟨fault, heq, -⟩
      · rw [heq]
        cases stage with
        | cipher _ => exact h
        | framer _ => exact h
        | compression compressor =>
            rintro _ ⟨⟩
            exact hinstalled place compressor rfl
      · rw [heq]
        exact h
  | remove name =>
      simp only [attempt]
      rcases remove_cases (rfl : pipeline.kinds = pipeline.kinds) name with
        ⟨_, heq, -⟩ | ⟨_, heq, -⟩ | ⟨fault, heq, -⟩
      · rw [heq]
        exact h
      · rw [heq]
        exact nofun
      · rw [heq]
        exact h
  | retune threshold =>
      intro compressor hmem
      obtain ⟨old, hold, rfl⟩ := Option.map_eq_some_iff.1 hmem
      exact hretune old threshold (h old hold)

end

/-! ## Changes and bytes -/

/-- A cipher may as well be installed before bytes arrive as after: it decrypts what is staged, and
what comes later on arrival. -/
theorem install_cipher_feed (h : pipeline.contains StageKind.cipher.name = false) (cipher : Cipher)
    (bytes : Bytes) :
    (pipeline.feed bytes).install (.cipher cipher)
      = (pipeline.install (.cipher cipher)).feed bytes := by
  rw [contains_cipher] at h
  obtain ⟨cipher?, maxBody, compressor?, staged⟩ := pipeline
  obtain rfl : cipher? = none := by simpa using h
  simp [feed, install, Cipher.decrypt_append]

theorem feed_with_compressor? (pipeline : Pipeline) (compressor? : Option Compressor)
    (bytes : Bytes) :
    ({ pipeline with compressor? } : Pipeline).feed bytes
      = { pipeline.feed bytes with compressor? } := by
  obtain ⟨cipher?, maxBody, before, staged⟩ := pipeline
  cases cipher? with
  | none => rfl
  | some cipher => rfl

theorem install_feed {stage : Stage} (h : pipeline.contains stage.kind.name = false)
    (bytes : Bytes) :
    (pipeline.feed bytes).install stage = (pipeline.install stage).feed bytes := by
  cases stage with
  | cipher cipher => exact install_cipher_feed h cipher bytes
  | framer maxBody =>
      rw [Stage.kind, contains_framer] at h
      exact absurd h (by simp)
  | compression compressor => exact (feed_with_compressor? pipeline (some compressor) bytes).symm

theorem insert_feed (pipeline : Pipeline) (place : Place) (stage : Stage) (bytes : Bytes) :
    (pipeline.feed bytes).insert place stage
      = (pipeline.insert place stage).map fun changed => changed.feed bytes := by
  rcases insert_cases (feed_kinds pipeline bytes).symm place stage with
    ⟨hfree, hone, htwo⟩ | ⟨fault, hone, htwo⟩
  · rw [hone, htwo, install_feed hfree]
    rfl
  · rw [hone, htwo]
    rfl

theorem remove_feed (pipeline : Pipeline) (name : String) (bytes : Bytes) :
    (pipeline.feed bytes).remove name
      = (pipeline.remove name).map fun (kind?, changed) => (kind?, changed.feed bytes) := by
  rcases remove_cases (feed_kinds pipeline bytes).symm name with
    ⟨_, hone, htwo⟩ | ⟨_, hone, htwo⟩ | ⟨fault, hone, htwo⟩
  · rw [hone, htwo]
    rfl
  · rw [hone, htwo, ← feed_with_compressor?]
    rfl
  · rw [hone, htwo]
    rfl

theorem retune_feed (pipeline : Pipeline) (threshold : Nat) (bytes : Bytes) :
    (pipeline.feed bytes).retune threshold = (pipeline.retune threshold).feed bytes := by
  rw [retune, feed_compressor?]
  exact (feed_with_compressor? pipeline _ bytes).symm

/-- A change may as well be made before bytes arrive as after. -/
theorem change_feed (pipeline : Pipeline) (change : Change) (bytes : Bytes) :
    (pipeline.feed bytes).change change = (pipeline.change change).feed bytes := by
  rcases change_cases (feed_kinds pipeline bytes).symm change with
    ⟨hone, htwo⟩ | ⟨place, cipher, -, hfree, hone, htwo⟩ | ⟨update, hone, htwo⟩
  · rw [hone, htwo]
  · rw [hone, htwo, install_cipher_feed hfree]
  · rw [hone, htwo, feed_compressor?]
    exact (feed_with_compressor? pipeline (update pipeline.compressor?) bytes).symm

theorem change_pending (pipeline : Pipeline) (change : Change) :
    (pipeline.change change).pending = pipeline.pending := by
  rcases change_cases (rfl : pipeline.kinds = pipeline.kinds) change with
    ⟨heq, -⟩ | ⟨place, cipher, -, -, heq, -⟩ | ⟨update, heq, -⟩
  · rw [heq]
  · rw [heq]
    exact Cipher.length_decrypt cipher pipeline.staged
  · rw [heq]
    rfl

theorem insert_pending {place : Place} {stage : Stage} {changed : Pipeline}
    (h : pipeline.insert place stage = .ok changed) : changed.pending = pipeline.pending := by
  have hchange := change_pending pipeline (.insert place stage)
  rwa [change, attempt, h] at hchange

theorem remove_pending {name : String} {kind? : Option StageKind} {changed : Pipeline}
    (h : pipeline.remove name = .ok (kind?, changed)) : changed.pending = pipeline.pending := by
  have hchange := change_pending pipeline (.remove name)
  rwa [change, attempt, h] at hchange

theorem change_maxBody (pipeline : Pipeline) (change : Change) :
    (pipeline.change change).maxBody = pipeline.maxBody := by
  rcases change_cases (rfl : pipeline.kinds = pipeline.kinds) change with
    ⟨heq, -⟩ | ⟨place, cipher, -, -, heq, -⟩ | ⟨update, heq, -⟩
  · rw [heq]
  · rw [heq]
    rfl
  · rw [heq]

/-! ## What goes out -/

theorem encode_feed (pipeline : Pipeline) (payload bytes : Bytes) :
    (pipeline.feed bytes).encode payload
      = (pipeline.encode payload).map fun (sent, next) => (sent, next.feed bytes) := by
  obtain ⟨cipher?, maxBody, compressor?, staged⟩ := pipeline
  cases cipher? with
  | none =>
      simp only [encode, feed, wrap]
      split
      · rfl
      · split
        · rfl
        · rfl
  | some cipher =>
      simp only [encode, feed, wrap]
      split
      · rfl
      · split
        · rfl
        · rfl

theorem encode_staged {payload : Bytes} {sent : Sent}
    (h : pipeline.encode payload = .ok (sent, next)) : next.staged = pipeline.staged := by
  simp only [encode] at h
  split at h
  · cases h
  · split at h
    · cases h
    · cases h
      rw [sealFrame]
      split
      · rfl
      · rfl

end PhaseWire.Pipeline
