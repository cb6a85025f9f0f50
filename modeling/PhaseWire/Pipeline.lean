import PhaseWire.Cipher.Stream
import PhaseWire.Compression.Stage
import PhaseWire.Frame

/-
# `Pipeline` — the stages between wire bytes and payloads

From the wire inward stand at most one cipher, exactly one framer and at
most one compressor.  The type has a place for each, so no other order can
arise; the operations speak of stages by name and position, as a list, and
refuse what would not fit.

Bytes that came in are decrypted at once and kept until they make a whole
frame.  A cipher that is installed while bytes are kept decrypts those
too, because the peer encrypted everything behind the frame that announced
the cipher.
-/

namespace PhaseWire

/-! ## Stages -/

/-- The kinds of stages, from the wire inward. -/
inductive StageKind
  | cipher
  | framer
  | compression
  deriving DecidableEq, Repr

namespace StageKind

def name : StageKind → String
  | cipher => "cipher"
  | framer => "framer"
  | compression => "compression"

/-- The place of a stage in the only order there is. -/
def rank : StageKind → Nat
  | cipher => 0
  | framer => 1
  | compression => 2

/-- The rule that a stage breaks where it does not fit. -/
def rule : StageKind → String
  | cipher => Reason.cipherAfterFramer
  | framer => Reason.compressionBeforeFramer
  | compression => Reason.compressionBeforeFramer

end StageKind

inductive Stage
  | cipher (cipher : Cipher)
  | framer (maxBody : Nat)
  | compression (compressor : Compressor)

def Stage.kind : Stage → StageKind
  | cipher _ => .cipher
  | framer _ => .framer
  | compression _ => .compression

/-- Where a stage is to stand, relative to one that is installed. -/
inductive Place
  /-- On the wire's side of the named stage. -/
  | before (anchor : String)
  /-- On the packets' side of the named stage. -/
  | after (anchor : String)
  deriving DecidableEq, Repr

/-! ## The pipeline -/

/-- The stages of a connection and the bytes that wait for the rest of their frame. -/
structure Pipeline where
  cipher? : Option Cipher
  /-- The largest frame body. -/
  maxBody : Nat
  compressor? : Option Compressor
  /-- Decrypted bytes that are not yet a whole frame. -/
  staged : Bytes

namespace Pipeline

/-- A framer alone. -/
def new (maxBody : Nat) : Pipeline :=
  ⟨none, maxBody, none, []⟩

/-- The kinds of the installed stages, from the wire inward. -/
def kinds (pipeline : Pipeline) : List StageKind :=
  (if pipeline.cipher?.isSome then [.cipher] else []) ++ [.framer]
    ++ (if pipeline.compressor?.isSome then [.compression] else [])

/-- The names of the installed stages, from the wire inward. -/
def names (pipeline : Pipeline) : List String :=
  pipeline.kinds.map StageKind.name

def indexOf? (pipeline : Pipeline) (name : String) : Option Nat :=
  pipeline.names.findIdx? (· == name)

/-- Whether a stage of the given name is installed. -/
def contains (pipeline : Pipeline) (name : String) : Bool :=
  (pipeline.indexOf? name).isSome

def isEncrypted (pipeline : Pipeline) : Bool :=
  pipeline.cipher?.isSome

/-- How many bytes wait for the rest of their frame. -/
def pending (pipeline : Pipeline) : Nat :=
  pipeline.staged.length

/-! ## Changing the stages -/

/-- Puts a stage into its place.  Bytes that are staged go through a new cipher. -/
def install (pipeline : Pipeline) : Stage → Pipeline
  | .cipher cipher =>
    let (staged, cipher) := cipher.decrypt pipeline.staged
    { pipeline with cipher? := some cipher, staged }
  | .framer maxBody => { pipeline with maxBody }
  | .compression compressor => { pipeline with compressor? := some compressor }

/-- Whether a stage at an index stands behind all stages of lower rank and before all others. -/
def fits (kinds : List StageKind) (index : Nat) (kind : StageKind) : Bool :=
  (index = 0 || kinds[index - 1]?.all (fun other => decide (other.rank < kind.rank)))
    && kinds[index]?.all (fun other => decide (kind.rank < other.rank))

/-- Installs a stage at an index, unless there is one of its kind or the order would break. -/
def insertAt (pipeline : Pipeline) (index : Nat) (stage : Stage) : Except Fault Pipeline :=
  if pipeline.contains stage.kind.name then
    .error (.setup s!"pipeline stage {stage.kind.name} is already installed")
  else if fits pipeline.kinds index stage.kind then .ok (pipeline.install stage)
  else .error (.stageOrder stage.kind.rule)

/-- Installs a stage before or after another. -/
def insert (pipeline : Pipeline) (place : Place) (stage : Stage) : Except Fault Pipeline :=
  match place with
  | .before anchor =>
    match pipeline.indexOf? anchor with
    | none => .error (.stageNotFound anchor)
    | some index => pipeline.insertAt index stage
  | .after anchor =>
    match pipeline.indexOf? anchor with
    | none => .error (.stageNotFound anchor)
    | some index => pipeline.insertAt (index + 1) stage

/-- Takes the stage of the given name out and says which it was.  The framer and the cipher stay. -/
def remove (pipeline : Pipeline) (name : String) : Except Fault (Option StageKind × Pipeline) :=
  match pipeline.indexOf? name with
  | none => .ok (none, pipeline)
  | some index =>
    match pipeline.kinds[index]? with
    | some .framer => .error (.stagePinned StageKind.framer.name)
    | some .cipher => .error (.stagePinned StageKind.cipher.name)
    | some .compression => .ok (some .compression, { pipeline with compressor? := none })
    | none => .ok (none, pipeline)

/-- Sets the threshold of an installed compressor. -/
def retune (pipeline : Pipeline) (threshold : Nat) : Pipeline :=
  { pipeline with
    compressor? := pipeline.compressor?.map fun compressor => { compressor with threshold } }

/-! ## Traffic -/

/-- Takes in bytes from the wire. -/
def feed (pipeline : Pipeline) (incoming : Bytes) : Pipeline :=
  match pipeline.cipher? with
  | none => { pipeline with staged := pipeline.staged ++ incoming }
  | some cipher =>
    let (plain, cipher) := cipher.decrypt incoming
    { pipeline with cipher? := some cipher, staged := pipeline.staged ++ plain }

/-- The payload of a frame body. -/
def unwrap (pipeline : Pipeline) (body : Bytes) : Except Fault Bytes :=
  match pipeline.compressor? with
  | none => .ok body
  | some compressor => compressor.decode body

/-- The next payload among the staged bytes, if a whole frame is there.  A frame is taken off even
if its body turns out to be bad. -/
def next (pipeline : Pipeline) : Except Fault (Option Bytes) × Pipeline :=
  match Frame.decode pipeline.maxBody pipeline.staged with
  | .error fault => (.error fault, pipeline)
  | .ok none => (.ok none, pipeline)
  | .ok (some (body, staged)) => ((pipeline.unwrap body).map some, { pipeline with staged })

/-- Takes in bytes from the wire and gives the next payload, if a whole frame is there. -/
def decode (pipeline : Pipeline) (incoming : Bytes) : Except Fault (Option Bytes) × Pipeline :=
  (pipeline.feed incoming).next

/-- A payload as a frame body, and whether it was compressed. -/
def wrap (pipeline : Pipeline) (payload : Bytes) : Except Fault (Bytes × Bool) :=
  match pipeline.compressor? with
  | none => .ok (payload, false)
  | some compressor => compressor.encode payload

/-- Encrypts a whole frame. -/
def sealFrame (pipeline : Pipeline) (frame : Bytes) : Bytes × Pipeline :=
  match pipeline.cipher? with
  | none => (frame, pipeline)
  | some cipher =>
    let (wire, cipher) := cipher.encrypt frame
    (wire, { pipeline with cipher? := some cipher })

/-- What goes out for a payload. -/
structure Sent where
  wire : Bytes
  compressed : Bool
  deriving DecidableEq, Repr

/-- The wire bytes of a payload.  The cipher moves on only if there is a frame to encrypt. -/
def encode (pipeline : Pipeline) (payload : Bytes) : Except Fault (Sent × Pipeline) :=
  match pipeline.wrap payload with
  | .error fault => .error fault
  | .ok (body, compressed) =>
    match Frame.encode pipeline.maxBody body with
    | .error fault => .error fault
    | .ok frame =>
      let (wire, pipeline) := pipeline.sealFrame frame
      .ok (⟨wire, compressed⟩, pipeline)

end Pipeline
end PhaseWire
