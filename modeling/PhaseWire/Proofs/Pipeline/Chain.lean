import Mathlib.Data.List.Basic
import Mathlib.Data.List.InsertIdx
import PhaseWire.Proofs.Pipeline.Change

/-
# The stages as a list that is changed in place

A `Pipeline` has a place for each kind of stage.  A `Chain` is a list of
stages, which could stand in any order and any number, and a buffer of
staged bytes.  Its operations change it in place: whatever an operation
did before it failed stays done.  An insertion looks at the two neighbours
of the new stage only, and sending and receiving walk the list and take
the stages as they come.

The module turns on `fits_iff`: on a list in order the two neighbours
decide for the whole list.  From it every operation on the chain of a
pipeline is the operation on the pipeline (`insert_chain`, `remove_chain`,
`retune_chain`, `encode_chain`, `decode_chain`).
-/

namespace PhaseWire

/-! ## Order -/

/-- Stages of these kinds stand in the only order there is, and no kind comes twice. -/
def InOrder (kinds : List StageKind) : Prop :=
  kinds.Pairwise fun outer inner => outer.rank < inner.rank

instance (kinds : List StageKind) : Decidable (InOrder kinds) :=
  inferInstanceAs (Decidable (kinds.Pairwise _))

namespace Pipeline

theorem kinds_inOrder (pipeline : Pipeline) : InOrder pipeline.kinds := by
  rw [kinds]
  split <;> split <;> decide

theorem inOrder_cons_iff {first : StageKind} {kinds : List StageKind} (h : InOrder kinds) :
    InOrder (first :: kinds) ↔ kinds[0]?.all fun other => decide (first.rank < other.rank) := by
  cases kinds with
  | nil => simp [InOrder]
  | cons second kinds =>
      obtain ⟨hsecond, -⟩ := List.pairwise_cons.1 h
      constructor
      · intro hall
        have := (List.pairwise_cons.1 hall).1 second List.mem_cons_self
        simpa using this
      · intro hnear
        have hfirst : first.rank < second.rank := by simpa using hnear
        refine List.pairwise_cons.2 ⟨?_, h⟩
        intro other hother
        rcases List.mem_cons.1 hother with rfl | hother
        · exact hfirst
        · exact Nat.lt_trans hfirst (hsecond other hother)

theorem inOrder_insertIdx_cons_iff {first kind : StageKind} {kinds : List StageKind} {index : Nat}
    (h : InOrder (first :: kinds)) (hindex : index ≤ kinds.length) :
    InOrder ((first :: kinds).insertIdx (index + 1) kind)
      ↔ first.rank < kind.rank ∧ InOrder (kinds.insertIdx index kind) := by
  obtain ⟨hfirst, -⟩ := List.pairwise_cons.1 h
  rw [List.insertIdx_succ_cons, InOrder, List.pairwise_cons]
  refine and_congr_left fun _ => ?_
  constructor
  · intro hall
    exact hall kind ((List.mem_insertIdx hindex).2 (.inl rfl))
  · intro hkind other hother
    rcases (List.mem_insertIdx hindex).1 hother with rfl | hother
    · exact hkind
    · exact hfirst other hother

/-- Behind the head of a list in order a stage must not only fit into the tail: at its front the
head is the neighbour.  Further in, the neighbour is one that stands behind the head. -/
theorem fits_cons_iff {first kind : StageKind} {kinds : List StageKind} {index : Nat}
    (h : InOrder (first :: kinds)) (hindex : index ≤ kinds.length) :
    fits (first :: kinds) (index + 1) kind ↔ first.rank < kind.rank ∧ fits kinds index kind := by
  cases index with
  | zero => simp [fits]
  | succ index =>
      have hthere : index < kinds.length := hindex
      have hfirst : first.rank < kinds[index].rank :=
        (List.pairwise_cons.1 h).1 _ (List.getElem_mem hthere)
      have hnear : fits (first :: kinds) (index + 1 + 1) kind = fits kinds (index + 1) kind := rfl
      rw [hnear, iff_and_self]
      intro hfits
      have hkind : kinds[index].rank < kind.rank := by
        simp only [fits, Bool.and_eq_true] at hfits
        simpa [hthere] using hfits.1
      exact Nat.lt_trans hfirst hkind

/-- On a list in order it is enough to look at the two neighbours of a new stage. -/
theorem fits_iff : ∀ {kinds : List StageKind} {index : Nat} (kind : StageKind),
    InOrder kinds → index ≤ kinds.length →
      (fits kinds index kind ↔ InOrder (kinds.insertIdx index kind)) := by
  intro kinds
  induction kinds with
  | nil =>
      intro index kind _ hindex
      obtain rfl : index = 0 := by simpa using hindex
      simp [fits, InOrder]
  | cons first kinds ih =>
      intro index kind h hindex
      cases index with
      | zero =>
          rw [List.insertIdx_zero, inOrder_cons_iff h]
          simp [fits]
      | succ index =>
          have hindex : index ≤ kinds.length := Nat.le_of_succ_le_succ hindex
          rw [fits_cons_iff h hindex, inOrder_insertIdx_cons_iff h hindex,
            ih kind (List.pairwise_cons.1 h).2 hindex]

end Pipeline

/-! ## Chains -/

/-- The name of the stage by which a place is told. -/
def Place.anchor : Place → String
  | before anchor => anchor
  | after anchor => anchor

def Place.index : Place → Nat → Nat
  | before _, anchor => anchor
  | after _, anchor => anchor + 1

/-- Stages from the wire inward, in whatever order, and the bytes that wait for the rest of their
frame. -/
structure Chain where
  stages : List Stage
  staged : Bytes

namespace Chain

def kinds (chain : Chain) : List StageKind :=
  chain.stages.map Stage.kind

def indexOf? (chain : Chain) (name : String) : Option Nat :=
  (chain.kinds.map StageKind.name).findIdx? (· == name)

/-- What is done before a stage comes in: a cipher decrypts the staged bytes. -/
def prepare (chain : Chain) : Stage → Stage × Chain
  | .cipher cipher =>
    let (staged, cipher) := cipher.decrypt chain.staged
    (.cipher cipher, { chain with staged })
  | stage => (stage, chain)

def insertAt (chain : Chain) (index : Nat) (stage : Stage) : Except Fault Unit × Chain :=
  if (chain.indexOf? stage.kind.name).isSome then
    (.error (.setup s!"pipeline stage {stage.kind.name} is already installed"), chain)
  else if Pipeline.fits chain.kinds index stage.kind then
    let (stage, chain) := chain.prepare stage
    (.ok (), { chain with stages := chain.stages.insertIdx index stage })
  else (.error (.stageOrder stage.kind.rule), chain)

def insert (chain : Chain) (place : Place) (stage : Stage) : Except Fault Unit × Chain :=
  match chain.indexOf? place.anchor with
  | none => (.error (.stageNotFound place.anchor), chain)
  | some anchor => chain.insertAt (place.index anchor) stage

/-- Takes a stage out of the list. -/
def remove (chain : Chain) (name : String) : Except Fault (Option StageKind) × Chain :=
  match chain.indexOf? name with
  | none => (.ok none, chain)
  | some index =>
    match chain.kinds[index]? with
    | some .framer => (.error (.stagePinned StageKind.framer.name), chain)
    | some .cipher => (.error (.stagePinned StageKind.cipher.name), chain)
    | some .compression =>
      (.ok (some .compression), { chain with stages := chain.stages.eraseIdx index })
    | none => (.ok none, chain)

def retuneFirst (threshold : Nat) : List Stage → List Stage
  | [] => []
  | .compression compressor :: inner => .compression { compressor with threshold } :: inner
  | stage :: inner => stage :: retuneFirst threshold inner

def retune (chain : Chain) (threshold : Nat) : Chain :=
  { chain with stages := retuneFirst threshold chain.stages }

/-- What has become of a payload on its way out. -/
structure Outgoing where
  body : Bytes
  compressed : Bool
  /-- There is none before the payload has passed a framer. -/
  wire? : Option Bytes

/-- Sends a payload through one stage, which may change by it. -/
def sendOne (out : Outgoing) : Stage → Except Fault Outgoing × Stage
  | .compression compressor =>
    match compressor.encode out.body with
    | .error fault => (.error fault, .compression compressor)
    | .ok (body, compressed) => (.ok { out with body, compressed }, .compression compressor)
  | .framer maxBody =>
    match Frame.encode maxBody out.body with
    | .error fault => (.error fault, .framer maxBody)
    | .ok frame => (.ok { out with wire? := some frame }, .framer maxBody)
  | .cipher cipher =>
    match out.wire? with
    | none => (.ok out, .cipher cipher)
    | some frame =>
      let (wire, cipher) := cipher.encrypt frame
      (.ok { out with wire? := some wire }, .cipher cipher)

/-- Sends a payload through a list of stages, the innermost first.  A stage that was passed before
a fault keeps what it has become. -/
def sendThrough (out : Outgoing) : List Stage → Except Fault Outgoing × List Stage
  | [] => (.ok out, [])
  | stage :: inner =>
    match sendThrough out inner with
    | (.error fault, inner) => (.error fault, stage :: inner)
    | (.ok out, inner) =>
      let (result, stage) := sendOne out stage
      (result, stage :: inner)

def encode (chain : Chain) (payload : Bytes) : Except Fault Pipeline.Sent × Chain :=
  match sendThrough ⟨payload, false, none⟩ chain.stages with
  | (.error fault, stages) => (.error fault, { chain with stages })
  | (.ok out, stages) =>
    match out.wire? with
    | none => (.error (.stageNotFound StageKind.framer.name), { chain with stages })
    | some wire => (.ok ⟨wire, out.compressed⟩, { chain with stages })

def receiveThrough (incoming : Bytes) : List Stage → Bytes × List Stage
  | .cipher cipher :: inner =>
    let (plain, cipher) := cipher.decrypt incoming
    let (plain, inner) := receiveThrough plain inner
    (plain, .cipher cipher :: inner)
  | stages => (incoming, stages)

/-- Takes in bytes from the wire, if there are any. -/
def feed (chain : Chain) (incoming : Bytes) : Chain :=
  if incoming.isEmpty then chain
  else
    let (plain, stages) := receiveThrough incoming chain.stages
    ⟨stages, chain.staged ++ plain⟩

/-- What a list of stages makes of a frame, and what it leaves of the staged bytes: a framer takes
a frame off them, and what is further in opens it. -/
def openThrough (staged : Bytes) (frame? : Option Bytes) :
    List Stage → Except Fault (Option Bytes) × Bytes
  | [] => (.ok frame?, staged)
  | stage :: inner =>
    match stage, frame? with
    | .framer maxBody, none =>
      match Frame.decode maxBody staged with
      | .error fault => (.error fault, staged)
      | .ok none => (.ok none, staged)
      | .ok (some (body, staged)) => openThrough staged (some body) inner
    | .compression compressor, some body =>
      match compressor.decode body with
      | .error fault => (.error fault, staged)
      | .ok body => openThrough staged (some body) inner
    | _, frame? => openThrough staged frame? inner

/-- Takes in bytes from the wire and gives the next payload, if a whole frame is there. -/
def decode (chain : Chain) (incoming : Bytes) : Except Fault (Option Bytes) × Chain :=
  let chain := chain.feed incoming
  let (result, staged) := openThrough chain.staged none chain.stages
  (result, { chain with staged })

end Chain

/-! ## The chain of a pipeline -/

namespace Pipeline

def stages (pipeline : Pipeline) : List Stage :=
  pipeline.cipher?.toList.map .cipher ++ .framer pipeline.maxBody
    :: pipeline.compressor?.toList.map .compression

def chain (pipeline : Pipeline) : Chain :=
  ⟨pipeline.stages, pipeline.staged⟩

@[simp] theorem chain_stages (pipeline : Pipeline) : pipeline.chain.stages = pipeline.stages := rfl

@[simp] theorem chain_staged (pipeline : Pipeline) : pipeline.chain.staged = pipeline.staged := rfl

@[simp] theorem chain_kinds (pipeline : Pipeline) : pipeline.chain.kinds = pipeline.kinds := by
  obtain ⟨cipher?, maxBody, compressor?, staged⟩ := pipeline
  cases cipher? <;> cases compressor? <;> rfl

@[simp] theorem chain_indexOf? (pipeline : Pipeline) (name : String) :
    pipeline.chain.indexOf? name = pipeline.indexOf? name := by
  rw [Chain.indexOf?, chain_kinds]
  rfl

theorem stages_kinds (pipeline : Pipeline) : pipeline.stages.map Stage.kind = pipeline.kinds :=
  chain_kinds pipeline

theorem length_stages (pipeline : Pipeline) : pipeline.stages.length = pipeline.kinds.length := by
  rw [← stages_kinds, List.length_map]

variable {pipeline : Pipeline}

/-- An operation that gives a new pipeline or fails, as one in place: a failed one leaves the
pipeline as it is. -/
def settle {α : Type} (pipeline : Pipeline) (outcome : Except Fault (α × Pipeline)) :
    Except Fault α × Pipeline :=
  match outcome with
  | .ok (answer, next) => (.ok answer, next)
  | .error fault => (.error fault, pipeline)

def asChain {α : Type} (outcome : α × Pipeline) : α × Chain :=
  (outcome.1, outcome.2.chain)

/-! ### Names -/

theorem contains_iff {name : String} : pipeline.contains name ↔ name ∈ pipeline.names := by
  rw [contains, indexOf?, List.findIdx?_isSome, List.any_eq_true]
  simp

theorem name_injective : Function.Injective StageKind.name := by
  intro kind other h
  cases kind <;> cases other <;> first | rfl | exact absurd h (by decide)

theorem name_mem_names_iff {kind : StageKind} :
    kind.name ∈ pipeline.names ↔ kind ∈ pipeline.kinds :=
  List.mem_map_of_injective name_injective

theorem kind_of_indexOf? {name : String} {index : Nat} (h : pipeline.indexOf? name = some index) :
    ∃ kind, pipeline.kinds[index]? = some kind ∧ kind.name = name := by
  obtain ⟨hlt, hname, -⟩ := List.findIdx?_eq_some_iff_getElem.1 h
  have hlt : index < pipeline.kinds.length := by simpa [names] using hlt
  refine ⟨pipeline.kinds[index], List.getElem?_eq_getElem hlt, ?_⟩
  simpa [names] using hname

theorem index_le_of_indexOf? {place : Place} {anchor : Nat}
    (h : pipeline.indexOf? place.anchor = some anchor) :
    place.index anchor ≤ pipeline.kinds.length := by
  obtain ⟨kind, hkind, -⟩ := kind_of_indexOf? h
  obtain ⟨hlt, -⟩ := List.getElem?_eq_some_iff.1 hkind
  cases place with
  | before name => exact Nat.le_of_lt hlt
  | after name => exact hlt

/-! ### Insertion -/

/-- A stage of a new kind joins the stages, wherever it comes to stand. -/
theorem install_stages_perm {stage : Stage} (hfree : stage.kind ∉ pipeline.kinds) :
    (pipeline.install stage).stages.Perm ((pipeline.chain.prepare stage).1 :: pipeline.stages) := by
  obtain ⟨cipher?, maxBody, compressor?, staged⟩ := pipeline
  cases stage with
  | cipher cipher =>
      obtain rfl : cipher? = none := by
        cases cipher? with
        | none => rfl
        | some _ => exact absurd (by simp [kinds, Stage.kind]) hfree
      exact .refl _
  | framer maxBody => exact absurd (by simp [kinds, Stage.kind]) hfree
  | compression compressor =>
      obtain rfl : compressor? = none := by
        cases compressor? with
        | none => rfl
        | some _ => exact absurd (by simp [kinds, Stage.kind]) hfree
      have hback : (install ⟨cipher?, maxBody, none, staged⟩ (.compression compressor)).stages
          = stages ⟨cipher?, maxBody, none, staged⟩ ++ [.compression compressor] := by
        simp [install, stages]
      rw [hback]
      exact List.perm_append_singleton _ _

theorem pairwise_of_inOrder {stages : List Stage} (h : InOrder (stages.map Stage.kind)) :
    stages.Pairwise fun outer inner => outer.kind.rank < inner.kind.rank := by
  rw [InOrder, List.pairwise_map] at h
  exact h

theorem prepare_kind (chain : Chain) (stage : Stage) :
    (chain.prepare stage).1.kind = stage.kind := by
  cases stage <;> rfl

/-- Two lists in order with the same stages are equal: the list with the new stage at its index is
the pipeline with the new stage in its place. -/
theorem install_stages {stage : Stage} {index : Nat} (hfree : stage.kind ∉ pipeline.kinds)
    (hindex : index ≤ pipeline.kinds.length)
    (horder : InOrder (pipeline.kinds.insertIdx index stage.kind)) :
    (pipeline.install stage).stages
      = pipeline.stages.insertIdx index (pipeline.chain.prepare stage).1 := by
  have hinstalled : InOrder ((pipeline.install stage).stages.map Stage.kind) := by
    rw [stages_kinds]
    exact kinds_inOrder _
  have hinserted : InOrder ((pipeline.stages.insertIdx index
      (pipeline.chain.prepare stage).1).map Stage.kind) := by
    rw [List.map_insertIdx, stages_kinds, prepare_kind]
    exact horder
  refine List.Perm.eq_of_pairwise ?_ (pairwise_of_inOrder hinstalled)
    (pairwise_of_inOrder hinserted) ?_
  · intro one two _ _ hone htwo
    exact absurd (Nat.lt_trans hone htwo) (Nat.lt_irrefl _)
  · rw [← length_stages] at hindex
    exact (install_stages_perm hfree).trans (List.perm_insertIdx _ _ hindex).symm

theorem install_chain {stage : Stage} {index : Nat} (hfree : stage.kind ∉ pipeline.kinds)
    (hindex : index ≤ pipeline.kinds.length)
    (horder : InOrder (pipeline.kinds.insertIdx index stage.kind)) :
    (pipeline.install stage).chain =
      { (pipeline.chain.prepare stage).2 with
        stages := (pipeline.chain.prepare stage).2.stages.insertIdx index
          (pipeline.chain.prepare stage).1 } := by
  rw [chain, install_stages hfree hindex horder]
  cases stage <;> rfl

theorem insertAt_chain {index : Nat} (hindex : index ≤ pipeline.kinds.length) (stage : Stage) :
    pipeline.chain.insertAt index stage
      = asChain (pipeline.settle ((pipeline.insertAt index stage).map fun next => ((), next))) := by
  rw [Chain.insertAt, insertAt, chain_indexOf?, chain_kinds, ← contains]
  by_cases hthere : pipeline.contains stage.kind.name
  · rw [if_pos hthere, if_pos hthere]
    rfl
  · have hfree : stage.kind ∉ pipeline.kinds := fun hmem =>
      hthere (contains_iff.2 (name_mem_names_iff.2 hmem))
    by_cases hfits : fits pipeline.kinds index stage.kind
    · have horder := (fits_iff stage.kind (kinds_inOrder pipeline) hindex).1 hfits
      rw [if_neg hthere, if_neg hthere, if_pos hfits, if_pos hfits]
      simp only [Except.map, settle, asChain]
      rw [install_chain hfree hindex horder]
    · rw [if_neg hthere, if_neg hthere, if_neg hfits, if_neg hfits]
      rfl

theorem insert_eq (place : Place) (stage : Stage) :
    pipeline.insert place stage =
      match pipeline.indexOf? place.anchor with
      | none => .error (.stageNotFound place.anchor)
      | some anchor => pipeline.insertAt (place.index anchor) stage := by
  cases place <;> rfl

theorem insert_chain (place : Place) (stage : Stage) :
    pipeline.chain.insert place stage
      = asChain (pipeline.settle ((pipeline.insert place stage).map fun next => ((), next))) := by
  rw [Chain.insert, chain_indexOf?, insert_eq]
  cases hanchor : pipeline.indexOf? place.anchor with
  | none => rfl
  | some anchor => exact insertAt_chain (index_le_of_indexOf? hanchor) stage

/-! ### Removal and tuning -/

theorem remove_eq (pipeline : Pipeline) (name : String) :
    pipeline.remove name =
      if name ∉ pipeline.names then .ok (none, pipeline)
      else if name = StageKind.compression.name then
        .ok (some .compression, { pipeline with compressor? := none })
      else .error (.stagePinned name) := by
  rw [remove]
  cases hindex : pipeline.indexOf? name with
  | none =>
      have hfree : name ∉ pipeline.names := fun hmem => by
        simpa [contains, hindex] using contains_iff.2 hmem
      rw [if_pos hfree]
  | some index =>
      have hthere : name ∈ pipeline.names := contains_iff.1 (by simp [contains, hindex])
      obtain ⟨kind, hkind, rfl⟩ := kind_of_indexOf? hindex
      rw [if_neg (not_not_intro hthere)]
      simp only [hkind]
      cases kind <;> rfl

theorem remove_chain (name : String) :
    pipeline.chain.remove name = asChain (pipeline.settle (pipeline.remove name)) := by
  rw [Chain.remove, remove, chain_indexOf?, chain_kinds]
  cases hindex : pipeline.indexOf? name with
  | none => rfl
  | some index =>
      obtain ⟨kind, hkind, rfl⟩ := kind_of_indexOf? hindex
      simp only [hkind]
      cases kind with
      | cipher => rfl
      | framer => rfl
      | compression =>
          -- The compressor is the last stage, whether or not there is a cipher.
          obtain ⟨cipher?, maxBody, compressor?, staged⟩ := pipeline
          cases compressor? with
          | none =>
              have hthere := List.mem_of_getElem? hkind
              cases cipher? <;> exact absurd hthere (by simp [kinds])
          | some compressor =>
              cases cipher? <;> obtain rfl := Option.some.inj hindex <;> rfl

theorem retune_chain (threshold : Nat) :
    pipeline.chain.retune threshold = (pipeline.retune threshold).chain := by
  obtain ⟨cipher?, maxBody, compressor?, staged⟩ := pipeline
  cases cipher? <;> cases compressor? <;> rfl

/-! ### Traffic -/

/-- A payload as a frame, with the body that the frame holds and whether it was compressed. -/
def frame (pipeline : Pipeline) (payload : Bytes) : Except Fault Chain.Outgoing :=
  match pipeline.wrap payload with
  | .error fault => .error fault
  | .ok (body, compressed) =>
    (Frame.encode pipeline.maxBody body).map fun frame => ⟨body, compressed, some frame⟩

/-- What stands behind the cipher makes a frame of a payload, or fails; it stays what it is. -/
theorem sendThrough_inward (pipeline : Pipeline) (payload : Bytes) :
    Chain.sendThrough ⟨payload, false, none⟩
        (.framer pipeline.maxBody :: pipeline.compressor?.toList.map .compression) =
      (pipeline.frame payload,
        .framer pipeline.maxBody :: pipeline.compressor?.toList.map .compression) := by
  have hwrap : Chain.sendThrough ⟨payload, false, none⟩
      (pipeline.compressor?.toList.map .compression) =
        ((pipeline.wrap payload).map fun (body, compressed) => ⟨body, compressed, none⟩,
          pipeline.compressor?.toList.map .compression) := by
    rw [wrap]
    cases pipeline.compressor? with
    | none => rfl
    | some compressor =>
        simp only [Option.toList_some, List.map_cons, List.map_nil, Chain.sendThrough, Chain.sendOne]
        rcases compressor.encode payload with fault | ⟨body, compressed⟩
        · rfl
        · rfl
  rw [Chain.sendThrough, hwrap, frame]
  rcases pipeline.wrap payload with fault | ⟨body, compressed⟩
  · rfl
  · simp only [Except.map, Chain.sendOne]
    cases Frame.encode pipeline.maxBody body <;> rfl

/-- Sending through the list is sending through the pipeline.  The cipher comes last, so a payload
that fails has not reached it. -/
theorem encode_chain (payload : Bytes) :
    pipeline.chain.encode payload = asChain (pipeline.settle (pipeline.encode payload)) := by
  have hinward := sendThrough_inward pipeline payload
  rw [Chain.encode, encode, chain_stages, stages]
  rw [frame] at hinward
  generalize hwrap : pipeline.wrap payload = wrapped at hinward ⊢
  obtain ⟨cipher?, maxBody, compressor?, staged⟩ := pipeline
  cases cipher? with
  | none =>
      simp only [Option.toList_none, List.map_nil, List.nil_append]
      rw [hinward]
      rcases wrapped with fault | ⟨body, compressed⟩
      · rfl
      · dsimp only
        cases Frame.encode maxBody body <;> rfl
  | some cipher =>
      simp only [Option.toList_some, List.map_cons, List.map_nil, List.cons_append,
        List.nil_append, Chain.sendThrough] at hinward ⊢
      rw [hinward]
      rcases wrapped with fault | ⟨body, compressed⟩
      · rfl
      · dsimp only
        cases Frame.encode maxBody body <;> rfl

theorem feed_chain (incoming : Bytes) :
    pipeline.chain.feed incoming = (pipeline.feed incoming).chain := by
  rw [Chain.feed]
  split
  · rename_i hempty
    rw [List.isEmpty_iff.1 hempty, feed_nil]
  · obtain ⟨cipher?, maxBody, compressor?, staged⟩ := pipeline
    cases cipher? <;> rfl

theorem openThrough_body (pipeline : Pipeline) (body staged : Bytes) :
    Chain.openThrough staged (some body) (pipeline.compressor?.toList.map .compression)
      = ((pipeline.unwrap body).map some, staged) := by
  rw [unwrap]
  cases pipeline.compressor? with
  | none => rfl
  | some compressor =>
      simp only [Option.toList_some, List.map_cons, List.map_nil, Chain.openThrough]
      cases compressor.decode body <;> rfl

theorem openThrough_stages (pipeline : Pipeline) :
    Chain.openThrough pipeline.staged none pipeline.stages
      = (pipeline.next.1, pipeline.next.2.staged) := by
  have hframer : Chain.openThrough pipeline.staged none pipeline.stages
      = Chain.openThrough pipeline.staged none
        (.framer pipeline.maxBody :: pipeline.compressor?.toList.map .compression) := by
    rw [stages]
    cases pipeline.cipher? <;> rfl
  rw [hframer, Chain.openThrough, next]
  rcases Frame.decode pipeline.maxBody pipeline.staged with fault | _ | ⟨body, staged⟩
  · rfl
  · rfl
  · exact openThrough_body pipeline body staged

theorem decode_chain (incoming : Bytes) :
    pipeline.chain.decode incoming = asChain (pipeline.decode incoming) := by
  rw [Chain.decode, decode, feed_chain, chain_staged, chain_stages, openThrough_stages]
  have hstages : (pipeline.feed incoming).next.2.stages = (pipeline.feed incoming).stages := by
    rw [next]
    split <;> rfl
  show ((pipeline.feed incoming).next.1,
    (⟨(pipeline.feed incoming).stages, (pipeline.feed incoming).next.2.staged⟩ : Chain)) = _
  rw [← hstages]
  rfl

end Pipeline
end PhaseWire
