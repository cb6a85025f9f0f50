import PhaseWire.Proofs.Pipeline.Chain
import PhaseWire.Proofs.Pipeline.RoundTrip

/-
# Runs of a pipeline keep the stages in order

A pipeline is used again and again: stages come and go, payloads are sent,
bytes come in.  The same run of a `Chain`, which could take any shape,
answers the same and has the stages of the pipeline after each use
(`run_chain`), although its insertions only look at two neighbours.  So
all that the type of a pipeline rules out is ruled out in place, too.

A cipher that is installed is never taken out or changed for another one:
its registers only move on, with what is sent and what comes in
(`run_cipher?`).
-/

namespace PhaseWire

/-! ## Ciphers in use -/

def Cipher.moved (cipher : Cipher) (sent received : Bytes) : Cipher :=
  ⟨(cipher.encrypt sent).2.outgoing, (cipher.decrypt received).2.incoming⟩

theorem Cipher.moved_moved (cipher : Cipher) (sent received more other : Bytes) :
    (cipher.moved sent received).moved more other
      = cipher.moved (sent ++ more) (received ++ other) := by
  simp only [moved, encrypt, decrypt, Feedback.stream_append]

namespace Pipeline

/-! ## Uses -/

/-- What may be done with a pipeline. -/
inductive Use
  | change (change : Change)
  | encode (payload : Bytes)
  | decode (incoming : Bytes)

def Use.received : Use → Bytes
  | decode incoming => incoming
  | change _ | encode _ => []

inductive Answer
  | changed (result : Except Fault Unit)
  | removed (result : Except Fault (Option StageKind))
  | sent (result : Except Fault Sent)
  | received (result : Except Fault (Option Bytes))

/-- Whether stages were to be changed and are not. -/
def Answer.isRefusal : Answer → Bool
  | changed (.error _) | removed (.error _) => true
  | _ => false

def use (pipeline : Pipeline) : Use → Answer × Pipeline
  | .change (.insert place stage) =>
    (pipeline.settle ((pipeline.insert place stage).map fun next => ((), next))).map .changed id
  | .change (.remove name) => (pipeline.settle (pipeline.remove name)).map .removed id
  | .change (.retune threshold) => (.changed (.ok ()), pipeline.retune threshold)
  | .encode payload => (pipeline.settle (pipeline.encode payload)).map .sent id
  | .decode incoming => (pipeline.decode incoming).map .received id

def run (pipeline : Pipeline) : List Use → List Answer × Pipeline
  | [] => ([], pipeline)
  | use :: uses =>
    let (answer, next) := pipeline.use use
    let (answers, last) := next.run uses
    (answer :: answers, last)

end Pipeline

namespace Chain

open Pipeline (Use Answer)

def use (chain : Chain) : Use → Answer × Chain
  | .change (.insert place stage) => (chain.insert place stage).map .changed id
  | .change (.remove name) => (chain.remove name).map .removed id
  | .change (.retune threshold) => (.changed (.ok ()), chain.retune threshold)
  | .encode payload => (chain.encode payload).map .sent id
  | .decode incoming => (chain.decode incoming).map .received id

def run (chain : Chain) : List Use → List Answer × Chain
  | [] => ([], chain)
  | use :: uses =>
    let (answer, next) := chain.use use
    let (answers, last) := next.run uses
    (answer :: answers, last)

end Chain

namespace Pipeline

variable {pipeline : Pipeline}

theorem use_chain (use : Use) : pipeline.chain.use use = asChain (pipeline.use use) := by
  cases use with
  | change change =>
      cases change with
      | insert place stage => rw [Chain.use, insert_chain]; rfl
      | remove name => rw [Chain.use, remove_chain]; rfl
      | retune threshold => rw [Chain.use, retune_chain]; rfl
  | encode payload => rw [Chain.use, encode_chain]; rfl
  | decode incoming => rw [Chain.use, decode_chain]; rfl

theorem run_chain : ∀ (uses : List Use) (pipeline : Pipeline),
    pipeline.chain.run uses = asChain (pipeline.run uses) := by
  intro uses
  induction uses with
  | nil => intro pipeline; rfl
  | cons use uses ih =>
      intro pipeline
      rw [Chain.run, use_chain]
      simp only [asChain] at ih ⊢
      rw [ih]
      rfl

/-- A change that is a use is the change. -/
theorem use_change (change : Change) :
    (pipeline.use (.change change)).2 = pipeline.change change := by
  cases change with
  | insert place stage =>
      simp only [use, Pipeline.change, attempt]
      cases pipeline.insert place stage <;> rfl
  | remove name =>
      simp only [use, Pipeline.change, attempt]
      cases pipeline.remove name <;> rfl
  | retune threshold => rfl

/-! ## What a use keeps -/

theorem next_cipher? (pipeline : Pipeline) : pipeline.next.2.cipher? = pipeline.cipher? := by
  rw [next]
  split <;> rfl

theorem next_compressor? (pipeline : Pipeline) :
    pipeline.next.2.compressor? = pipeline.compressor? := by
  rw [next]
  split <;> rfl

theorem use_maxBody (use : Use) : (pipeline.use use).2.maxBody = pipeline.maxBody := by
  cases use with
  | change change => rw [use_change, change_maxBody]
  | encode payload =>
      simp only [Pipeline.use]
      cases h : pipeline.encode payload with
      | error fault => rfl
      | ok outcome =>
          obtain ⟨sent, next⟩ := outcome
          obtain ⟨body, frame, -, -, hseal⟩ := encode_eq_ok h
          exact (congrArg (fun out => out.2.maxBody) hseal).trans (sealFrame_maxBody _ frame)
  | decode incoming =>
      exact (next_maxBody (pipeline.feed incoming)).trans (feed_maxBody pipeline incoming)

theorem run_maxBody : ∀ (uses : List Use) (pipeline : Pipeline),
    (pipeline.run uses).2.maxBody = pipeline.maxBody := by
  intro uses
  induction uses with
  | nil => intro pipeline; rfl
  | cons use uses ih => intro pipeline; exact (ih _).trans (use_maxBody use)

/-- A change leaves a cipher that is installed. -/
theorem change_cipher? {cipher : Cipher} (h : pipeline.cipher? = some cipher) (change : Change) :
    (pipeline.change change).cipher? = some cipher := by
  rcases change_cases (rfl : pipeline.kinds = pipeline.kinds) change with
    ⟨heq, -⟩ | ⟨place, other, -, hfree, -, -⟩ | ⟨update, heq, -⟩
  · rw [heq, h]
  · rw [contains_cipher, h] at hfree
    exact absurd hfree (by simp)
  · rw [heq]
    exact h

theorem use_cipher? {cipher : Cipher} (h : pipeline.cipher? = some cipher) (use : Use) :
    ∃ sent, (pipeline.use use).2.cipher? = some (cipher.moved sent use.received) := by
  cases use with
  | change change =>
      refine ⟨[], ?_⟩
      rw [use_change, change_cipher? h change]
      rfl
  | encode payload =>
      simp only [Pipeline.use]
      cases hencode : pipeline.encode payload with
      | error fault => exact ⟨[], h⟩
      | ok outcome =>
          obtain ⟨sent, next⟩ := outcome
          obtain ⟨body, frame, -, -, hseal⟩ := encode_eq_ok hencode
          refine ⟨frame, ?_⟩
          have hnext : next.cipher? = some (cipher.encrypt frame).2 := by
            rw [sealFrame, h] at hseal
            exact congrArg (fun out => out.2.cipher?) hseal
          exact hnext
  | decode incoming =>
      refine ⟨[], ?_⟩
      have hfeed : (pipeline.feed incoming).cipher? = some (cipher.decrypt incoming).2 := by
        rw [feed, h]
      exact (next_cipher? (pipeline.feed incoming)).trans hfeed

theorem run_cipher? : ∀ (uses : List Use) {pipeline : Pipeline} {cipher : Cipher},
    pipeline.cipher? = some cipher → ∃ sent,
      (pipeline.run uses).2.cipher?
        = some (cipher.moved sent (uses.flatMap Use.received)) := by
  intro uses
  induction uses with
  | nil => intro pipeline cipher h; exact ⟨[], h⟩
  | cons use uses ih =>
      intro pipeline cipher h
      obtain ⟨first, hfirst⟩ := use_cipher? h use
      obtain ⟨others, hothers⟩ := ih hfirst
      refine ⟨first ++ others, ?_⟩
      rw [Cipher.moved_moved] at hothers
      exact hothers

/-! ## Insertions and refusals -/

theorem insertAt_ok_iff {index : Nat} (hindex : index ≤ pipeline.kinds.length) (stage : Stage) :
    (∃ next, pipeline.insertAt index stage = .ok next) ↔
      stage.kind.name ∉ pipeline.names
        ∧ InOrder ((pipeline.stages.insertIdx index stage).map Stage.kind) := by
  rw [insertAt, List.map_insertIdx, stages_kinds, ← fits_iff _ (kinds_inOrder pipeline) hindex,
    ← contains_iff]
  by_cases hthere : pipeline.contains stage.kind.name
  · rw [if_pos hthere]
    simp [hthere]
  · rw [if_neg hthere]
    by_cases hfits : fits pipeline.kinds index stage.kind
    · rw [if_pos hfits]
      simp [hthere, hfits]
    · rw [if_neg hfits]
      simp [hfits]

/-- An insertion succeeds exactly if its anchor is there, its stage is not, and the list with the
stage at its place is in order. -/
theorem insert_ok_iff (place : Place) (stage : Stage) :
    (∃ next, pipeline.insert place stage = .ok next) ↔
      ∃ anchor, pipeline.indexOf? place.anchor = some anchor
        ∧ stage.kind.name ∉ pipeline.names
        ∧ InOrder ((pipeline.stages.insertIdx (place.index anchor) stage).map Stage.kind) := by
  rw [insert_eq]
  cases hanchor : pipeline.indexOf? place.anchor with
  | none => simp
  | some anchor =>
      dsimp only
      rw [insertAt_ok_iff (index_le_of_indexOf? hanchor)]
      simp

/-- Where an insertion succeeds, the stage stands at its place in the list.  A cipher stands there
as it is after the staged bytes. -/
theorem stages_of_insert {place : Place} {stage : Stage} {next : Pipeline}
    (h : pipeline.insert place stage = .ok next) :
    ∃ anchor, pipeline.indexOf? place.anchor = some anchor
      ∧ next.stages
        = pipeline.stages.insertIdx (place.index anchor) (pipeline.chain.prepare stage).1 := by
  obtain ⟨anchor, hanchor, hfree, horder⟩ := (insert_ok_iff place stage).1 ⟨next, h⟩
  have hindex := index_le_of_indexOf? hanchor
  rcases insert_cases (rfl : pipeline.kinds = pipeline.kinds) place stage with
    ⟨-, hok, -⟩ | ⟨fault, herror, -⟩
  · obtain rfl : pipeline.install stage = next := Except.ok.inj (hok.symm.trans h)
    refine ⟨anchor, hanchor, install_stages ?_ hindex ?_⟩
    · exact fun hmem => hfree (name_mem_names_iff.2 hmem)
    · rwa [List.map_insertIdx, stages_kinds] at horder
  · exact absurd (herror.symm.trans h) (by simp)

/-- An operation whose answer is a refusal has failed, and so it has settled where it began. -/
theorem settle_of_isRefusal {α : Type} {outcome : Except Fault (α × Pipeline)}
    {make : Except Fault α → Answer} (hmake : ∀ answer, (make (.ok answer)).isRefusal = false)
    (h : ((pipeline.settle outcome).map make id).1.isRefusal) :
    ((pipeline.settle outcome).map make id).2 = pipeline := by
  cases outcome with
  | error fault => rfl
  | ok outcome => exact absurd h (by simp [settle, hmake])

theorem use_of_isRefusal {use : Use} (h : (pipeline.use use).1.isRefusal) :
    (pipeline.use use).2 = pipeline := by
  cases use with
  | change change =>
      cases change with
      | insert place stage => exact settle_of_isRefusal (fun _ => rfl) h
      | remove name => exact settle_of_isRefusal (fun _ => rfl) h
      | retune threshold => exact absurd h (by simp [Pipeline.use, Answer.isRefusal])
  | encode payload => exact settle_of_isRefusal (fun _ => rfl) h
  | decode incoming => exact absurd h (by simp [Pipeline.use, Answer.isRefusal])

theorem encode_error {payload : Bytes} {fault : Fault}
    (h : pipeline.encode payload = .error fault) :
    (∃ compressor, pipeline.compressor? = some compressor
        ∧ compressor.compress payload = .error fault)
      ∨ ∃ size, fault = .tooLarge size ∧ pipeline.maxBody < size := by
  simp only [encode, Frame.encode] at h
  split at h
  · rename_i hwrap
    cases h
    rw [wrap] at hwrap
    split at hwrap
    · cases hwrap
    · rename_i compressor hcompressor
      exact .inl ⟨compressor, hcompressor, (Compressor.encode_error_iff.1 hwrap).2⟩
  · split at h
    · rename_i hframe
      split at hframe
      · rename_i hlarge
        cases hframe
        cases h
        exact .inr ⟨_, rfl, hlarge⟩
      · cases hframe
    · cases h

/-- After any run from a framer alone:

the list that is changed in place has answered as the pipeline has, and its stages are at most one
cipher, the framer from the start and at most one compressor, in this order;

an insertion succeeds exactly if its anchor is installed, no stage of its name is, and the list
with the stage at its place is in order; then the stages are that list, where a cipher is the one
that has decrypted the staged bytes;

a removal does nothing if there is no stage of the name, takes out the compressor, and fails on
framer and cipher; and what is refused leaves stages, ciphers and staged bytes as they are;

a cipher that is installed stays through any further run, moved on by what is sent and what comes
in; and a payload fails because the library of the compressor does or for the size of its frame,
never for want of a framer. -/
theorem stages_stay_in_order (maxBody : Nat) (uses : List Use) :
    let answers := ((new maxBody).run uses).1
    let pipeline := ((new maxBody).run uses).2
    (Chain.run ⟨[.framer maxBody], []⟩ uses = (answers, pipeline.chain)
      ∧ ∃ (cipher? : Option Cipher) (compressor? : Option Compressor),
        pipeline.chain.stages = cipher?.toList.map .cipher
          ++ [.framer maxBody] ++ compressor?.toList.map .compression)
    ∧ (∀ place stage, (∃ next, pipeline.insert place stage = .ok next) ↔
        ∃ anchor, pipeline.indexOf? place.anchor = some anchor
          ∧ stage.kind.name ∉ pipeline.names
          ∧ InOrder ((pipeline.stages.insertIdx (place.index anchor) stage).map Stage.kind))
    ∧ (∀ place stage next, pipeline.insert place stage = .ok next →
        ∃ anchor, pipeline.indexOf? place.anchor = some anchor
          ∧ next.stages
            = pipeline.stages.insertIdx (place.index anchor) (pipeline.chain.prepare stage).1)
    ∧ (∀ name, pipeline.remove name =
        if name ∉ pipeline.names then .ok (none, pipeline)
        else if name = StageKind.compression.name then
          .ok (some .compression, { pipeline with compressor? := none })
        else .error (.stagePinned name))
    ∧ (∀ use : Use, (pipeline.chain.use use).1.isRefusal →
        (pipeline.chain.use use).2 = pipeline.chain)
    ∧ (∀ cipher, pipeline.cipher? = some cipher → ∀ more : List Use, ∃ sent,
        (pipeline.run more).2.cipher? = some (cipher.moved sent (more.flatMap Use.received)))
    ∧ (∀ payload fault, (pipeline.chain.encode payload).1 = .error fault →
        fault = .compression ∧ pipeline.compressor?.isSome
          ∨ ∃ size, fault = .tooLarge size ∧ maxBody < size) := by
  intro answers pipeline
  have hmax : pipeline.maxBody = maxBody := run_maxBody uses (new maxBody)
  refine ⟨⟨run_chain uses (new maxBody), pipeline.cipher?, pipeline.compressor?, ?_⟩,
    insert_ok_iff, fun _ _ _ => stages_of_insert, remove_eq pipeline, ?_,
    fun _ hcipher more => run_cipher? more hcipher, ?_⟩
  · rw [chain_stages, stages, hmax, List.append_assoc]
    rfl
  · intro use hrefusal
    rw [use_chain] at hrefusal ⊢
    exact congrArg chain (use_of_isRefusal hrefusal)
  · intro payload fault hfault
    rw [encode_chain] at hfault
    cases hencode : pipeline.encode payload with
    | ok outcome =>
        rw [hencode] at hfault
        exact absurd hfault (by simp [settle, asChain])
    | error found =>
        rw [hencode] at hfault
        obtain rfl : found = fault := Except.error.inj hfault
        rcases encode_error hencode with ⟨compressor, hcompressor, hfails⟩ | ⟨size, rfl, hlarge⟩
        · exact .inl ⟨Method.compress_error hfails, Option.isSome_of_eq_some hcompressor⟩
        · exact .inr ⟨size, rfl, hmax ▸ hlarge⟩

end Pipeline
end PhaseWire
