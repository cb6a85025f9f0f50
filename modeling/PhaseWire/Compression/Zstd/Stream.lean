import PhaseWire.Compression.Zstd.Early
import PhaseWire.Compression.Zstd.Whole

/-
# `Work` — frames read in pieces

A frame that is not decoded at once is read piece by piece: a header, a
block or a checksum at a time, and raw blocks as they come.  What a piece
gives goes to the store and is handed over before the next piece is read.
When the store has no room for another block, its next lap begins.
-/

namespace PhaseWire.Compression.Zstd

/-! ## Buffers -/

/-- The largest window that is admitted. -/
def windowLimit : Nat := 1 <<< 27 + 1

/-- The sizes of the buffers for pieces and for content.  They stay from frame to frame. -/
structure Buffers where
  pieces : Nat
  content : Nat
  /-- How many frames in a row have needed a third of the buffers at most. -/
  idle : Nat
  deriving Repr

namespace Buffers

def empty : Buffers :=
  ⟨0, 0, 0⟩

def window (header : FrameHeader) : Nat :=
  max header.window 1024

def piecesOf (header : FrameHeader) : Nat :=
  max header.blockMax 4

/-- What a frame needs for its content: the window, two blocks and two strides, or less if its
content is shorter. -/
def contentOf (header : FrameHeader) : Nat :=
  let window := window header
  let full := window + 2 * min window header.blockMax + 2 * stride
  match header.contentSize? with
  | some size => min size full
  | none => full

/-- The buffers for the next frame: new ones if they are too small, or have been far too large for
128 frames. -/
def fit (buffers : Buffers) (header : FrameHeader) : Buffers :=
  let pieces := piecesOf header
  let content := contentOf header
  let isLarge := 3 * (pieces + content) ≤ buffers.pieces + buffers.content
  let idle := if isLarge then buffers.idle + 1 else 0
  if buffers.pieces < pieces ∨ buffers.content < content ∨ 128 ≤ idle then ⟨pieces, content, idle⟩
  else { buffers with idle }

end Buffers

/-! ## Open frames -/

/-- The piece of a frame that comes next. -/
inductive Awaited
  | header
  /-- So many bytes of a block. -/
  | block (header : BlockHeader) (left : Nat)
  | checksum
  | nothing
  deriving Repr

def Awaited.size : Awaited → Nat
  | .header => 3
  | .block _ left => left
  | .checksum => 4
  | .nothing => 0

structure OpenFrame where
  header : FrameHeader
  /-- The size of the store. -/
  capacity : Nat
  carry : Carry
  store : Store
  /-- How much of the lap is handed over. -/
  handed : Nat
  decoded : Nat
  /-- All content so far, if it will be checked. -/
  content : Array UInt8

namespace OpenFrame

def start (header : FrameHeader) (capacity : Nat) : OpenFrame :=
  ⟨header, capacity, .start, .empty, 0, 0, #[]⟩

def pending (frame : OpenFrame) : Nat :=
  frame.store.place - frame.handed

/-- What comes behind the last block. -/
def behindBlocks (header : FrameHeader) : Awaited :=
  if header.checked then .checksum else .nothing

/-- What comes behind a block header, if it is admitted.  A block without bytes is passed over, and
nobody asks for the size of the content if it is the last. -/
def behindHeader? (header : FrameHeader) (block : BlockHeader) : Option Awaited :=
  if header.blockMax < block.taken then none
  else if block.taken = 0 then some (if block.last then behindBlocks header else .header)
  else some (.block block block.taken)

/-- Counts in what a block, or a piece of a raw one, has given, and tells what comes next. -/
def close? (block : BlockHeader) (left : Nat) : OpenFrame → Option (Awaited × OpenFrame)
  | ⟨header, capacity, carry, ⟨cells, place, older⟩, handed, decoded, content⟩ =>
    let count := place - handed
    let decoded := decoded + count
    let content := if header.checked then content ++ cells.extract handed place else content
    let frame := ⟨header, capacity, carry, ⟨cells, place, older⟩, handed, decoded, content⟩
    if header.blockMax < count then none
    else if 0 < left then some (.block block left, frame)
    else if !block.last then some (.header, frame)
    else if header.contentSize?.any (· ≠ decoded) then none
    else some (behindBlocks header, frame)

/-- Takes in a block, or a piece of a raw one. -/
def takeBlock? (block : BlockHeader) (left : Nat) (bytes : Bytes) (shelf : Array UInt8) :
    OpenFrame → Option (Awaited × OpenFrame × Array UInt8)
  | ⟨header, capacity, carry, store, handed, decoded, content⟩ =>
    match block.kind with
    | .raw =>
      let count := bytes.length
      if capacity < store.place + count then none
      else
        (close? block (left - count)
          ⟨header, capacity, carry, store.append bytes.toArray count, handed, decoded, content⟩).map
          fun (awaited, frame) => (awaited, frame, shelf)
    | .repeated =>
      if capacity < store.place + block.size then none
      else
        let store := store.appendRepeated (bytes.headD 0) block.size
        (close? block 0 ⟨header, capacity, carry, store, handed, decoded, content⟩).map
          fun (awaited, frame) => (awaited, frame, shelf)
    | .compressed =>
      let site : Site := ⟨header.blockMax, capacity, false⟩
      match site.decode? bytes carry shelf store with
      | none => none
      | some ⟨carry, shelf, store⟩ =>
        (close? block 0 ⟨header, capacity, carry, store, handed, decoded, content⟩).map
          fun (awaited, frame) => (awaited, frame, shelf)

def take? (awaited : Awaited) (bytes : Bytes) (shelf : Array UInt8) (frame : OpenFrame) :
    Option (Awaited × OpenFrame × Array UInt8) :=
  match awaited with
  | .header => do
    let (block, _) ← BlockHeader.take? bytes
    let awaited ← behindHeader? frame.header block
    return (awaited, frame, shelf)
  | .block block left => takeBlock? block left bytes shelf frame
  | .checksum =>
    if Bytes.ofLittleEndian bytes = Zstd.checksum frame.content then some (.nothing, frame, shelf)
    else none
  | .nothing => none

/-- Whether the next lap has to begin before the next block. -/
def isFull (frame : OpenFrame) : Bool :=
  frame.header.contentSize?.all (frame.capacity < ·)
    && frame.capacity < frame.store.place + frame.header.blockMax

/-- Hands over at most `room` bytes. -/
def handOver (room : Nat) (out : Array UInt8) (frame : OpenFrame) : Array UInt8 :=
  out ++ frame.store.cells.extract frame.handed (frame.handed + min room frame.pending)

def advance (count : Nat) : OpenFrame → OpenFrame
  | ⟨header, capacity, carry, store, handed, decoded, content⟩ =>
    ⟨header, capacity, carry, store, handed + count, decoded, content⟩

/-- The frame after everything is handed over. -/
def settle (frame : OpenFrame) : OpenFrame :=
  let full := frame.isFull
  match frame with
  | ⟨header, capacity, carry, store, _, decoded, content⟩ =>
    if full then ⟨header, capacity, carry, store.rewind, 0, decoded, content⟩
    else
      let handed := store.place
      ⟨header, capacity, carry, store, handed, decoded, content⟩

end OpenFrame

/-! ## Work -/

/-- Where a reader of frames stands. -/
inductive Stage
  /-- Before a frame, with the front of its header. -/
  | opening (front : Bytes)
  | skipping (left : Nat)
  /-- Before a piece, with the front of it. -/
  | reading (awaited : Awaited) (loaded : Bytes) (frame : OpenFrame)
  | handing (awaited : Awaited) (frame : OpenFrame)
  | early (frame : EarlyFrame)

/-- A reader at work on some input, with some room for output. -/
structure Work where
  stage : Stage
  buffers : Buffers
  earlyBuffers : EarlyBuffers
  /-- The literals of earlier blocks. -/
  shelf : Array UInt8
  input : Bytes
  out : Array UInt8
  room : Nat

namespace Work

def beginEarly (input : Bytes) : Work → Step Work
  | ⟨_, buffers, earlyBuffers, shelf, _, out, room⟩ =>
    match EarlyFormat.ofBytes? input with
    | none => .failed
    | some format =>
      .next ⟨.early (.start format), buffers, earlyBuffers, shelf, input, out, room⟩

def beginFrame (fresh : Bool) (header : FrameHeader) (input : Bytes) : Work → Step Work
  | ⟨_, buffers, earlyBuffers, shelf, _, out, room⟩ =>
    if fresh && header.contentSize?.any (· ≤ room) && isComplete header input then
      match wholeFrame? header room shelf input with
      | none => .failed
      | some (content, shelf, rest) =>
        .finished
          ⟨.opening [], buffers, earlyBuffers, shelf, rest, out ++ content, room - content.size⟩
    else if header.dictionary ≠ 0 ∨ windowLimit < Buffers.window header then .failed
    else
      let buffers := buffers.fit header
      let frame := .start header buffers.content
      .next ⟨.reading .header [] frame, buffers, earlyBuffers, shelf, input, out, room⟩

def beginSkip (size : Nat) (input : Bytes) : Work → Step Work
  | ⟨_, buffers, earlyBuffers, shelf, _, out, room⟩ =>
    .next ⟨.skipping size, buffers.fit ⟨0, some size, false, 0⟩, earlyBuffers, shelf, input, out,
      room⟩

/-- Reads the opening of a frame. -/
def openStep (front : Bytes) (work : Work) : Step Work :=
  let input := front ++ work.input
  match Opening.take input with
  | .ok (.content header, rest) => beginFrame front.isEmpty header rest work
  | .ok (.skippable size, rest) => beginSkip size rest work
  | .error .starved => .starved { work with stage := .opening input, input := [] }
  | .error .corrupt => if front.isEmpty then beginEarly work.input work else .failed

def skipStep (left : Nat) (work : Work) : Step Work :=
  let count := (work.input.take left).length
  let input := work.input.drop left
  if count = left then .finished { work with stage := .opening [], input }
  else .starved { work with stage := .skipping (left - count), input }

def readStep (awaited : Awaited) (loaded : Bytes) (frame : OpenFrame) : Work → Step Work
  | ⟨_, buffers, earlyBuffers, shelf, input, out, room⟩ =>
    let bytes := loaded ++ input.take (awaited.size - loaded.length)
    let rest := input.drop (awaited.size - loaded.length)
    let isPiece := match awaited with
      | .block block _ => block.kind = .raw && !bytes.isEmpty
      | _ => false
    if awaited.size = 0 then
      .finished ⟨.opening [], buffers, earlyBuffers, shelf, input, out, room⟩
    else if bytes.length < awaited.size && !isPiece then
      .starved ⟨.reading awaited bytes frame, buffers, earlyBuffers, shelf, rest, out, room⟩
    else match frame.take? awaited bytes shelf with
      | none => .failed
      | some (awaited, frame, shelf) =>
        let stage := if frame.pending = 0 then .reading awaited [] frame else .handing awaited frame
        .next ⟨stage, buffers, earlyBuffers, shelf, rest, out, room⟩

/-- Hands over what a piece has given. -/
def handStep (awaited : Awaited) (frame : OpenFrame) : Work → Step Work
  | ⟨_, buffers, earlyBuffers, shelf, input, out, room⟩ =>
    let pending := frame.pending
    let out := frame.handOver room out
    if room < pending then
      .starved
        ⟨.handing awaited (frame.advance room), buffers, earlyBuffers, shelf, input, out, 0⟩
    else
      .next ⟨.reading awaited [] frame.settle, buffers, earlyBuffers, shelf, input, out,
        room - pending⟩

/-- Goes on with a frame of an early format. -/
def earlyStep (frame : EarlyFrame) : Work → Step Work
  | ⟨_, buffers, earlyBuffers, shelf, input, out, room⟩ =>
    match frame.step ⟨earlyBuffers, input, out, room⟩ with
    | none => .failed
    | some (.next frame, ⟨earlyBuffers, input, out, room⟩) =>
      .next ⟨.early frame, buffers, earlyBuffers, shelf, input, out, room⟩
    | some (.waiting frame, ⟨earlyBuffers, input, out, room⟩) =>
      .starved ⟨.early frame, buffers, earlyBuffers, shelf, input, out, room⟩
    | some (.finished, ⟨earlyBuffers, input, out, room⟩) =>
      .finished ⟨.opening [], buffers, earlyBuffers, shelf, input, out, room⟩

/-- The next step.  A run of steps ends with a frame, or when it needs more input or more room. -/
def step : Work → Step Work
  | ⟨stage, buffers, earlyBuffers, shelf, input, out, room⟩ =>
    let work := ⟨.opening [], buffers, earlyBuffers, shelf, input, out, room⟩
    match stage with
    | .opening front => openStep front work
    | .skipping left => skipStep left work
    | .reading awaited loaded frame => readStep awaited loaded frame work
    | .handing awaited frame => handStep awaited frame work
    | .early frame => earlyStep frame work

end Work
end PhaseWire.Compression.Zstd
