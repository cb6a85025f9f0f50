import PhaseWire.Compression.Zstd.Checksum
import PhaseWire.Compression.Zstd.Header

/-
# `EarlyFrame` — frames of the formats before the final one

Four early formats are still read.  Their blocks write kind and size with
the highest byte first, and a block of its own ends a frame; so does any
block without bytes.  Only raw blocks are admitted here.
-/

namespace PhaseWire.Compression.Zstd

/-! ## Formats -/

inductive EarlyFormat
  | fourth
  | fifth
  | sixth
  | seventh
  deriving DecidableEq, Repr

namespace EarlyFormat

def ofBytes? : Bytes → Option EarlyFormat
  | 0x24 :: 0xB5 :: 0x2F :: 0xFD :: _ :: _ => some fourth
  | 0x25 :: 0xB5 :: 0x2F :: 0xFD :: _ :: _ => some fifth
  | 0x26 :: 0xB5 :: 0x2F :: 0xFD :: _ :: _ => some sixth
  | 0x27 :: 0xB5 :: 0x2F :: 0xFD :: _ :: _ => some seventh
  | _ => none

end EarlyFormat

/-- What the header of an early frame says about sizes. -/
structure EarlyHeader where
  /-- The room for a piece that comes in parts. -/
  pieces : Nat
  content : Nat
  /-- The room that has to be left for the next block. -/
  unit : Nat
  checked : Bool
  deriving Repr

namespace EarlyHeader

/-- The sizes that go with a window, in the two later formats. -/
def ofWindow (window : Nat) (checked : Bool) : EarlyHeader :=
  let block := min window blockLimit
  ⟨block, window + block + 16, block, checked⟩

/-- Reads a header of the two first formats, behind its magic number. -/
def takeShort (input : Bytes) : Except Stop (EarlyHeader × Bytes) := do
  let (descriptor, input) ← takeNumber 1 input
  if 16 ≤ descriptor then .error .corrupt
  else return (⟨blockLimit, 1 <<< (11 + descriptor), blockLimit, false⟩, input)

/-- Reads a header of the sixth format, behind its magic number. -/
def takeSixth (input : Bytes) : Except Stop (EarlyHeader × Bytes) := do
  let (descriptor, input) ← takeNumber 1 input
  let sizeWidth := match descriptor / 64 with | 0 => 0 | 1 => 1 | 2 => 2 | _ => 8
  let (_, input) ← takeNumber sizeWidth input
  if descriptor / 32 % 2 = 1 then .error .corrupt
  else return (ofWindow (1 <<< (12 + descriptor % 16)) false, input)

/-- Reads a header of the seventh format, behind its magic number. -/
def takeSeventh (input : Bytes) : Except Stop (EarlyHeader × Bytes) := do
  let (header, input) ← Opening.takeHeader input
  let window := header.window % UInt32.size
  if header.dictionary ≠ 0 ∨ 1 <<< 27 < window then .error .corrupt
  else return (ofWindow (max window 1024) header.checked, input)

/-- Reads a header with its magic number. -/
def take (format : EarlyFormat) (input : Bytes) : Except Stop (EarlyHeader × Bytes) := do
  let (_, input) ← takeNumber 4 input
  match format with
  | .fourth | .fifth => takeShort input
  | .sixth => takeSixth input
  | .seventh => takeSeventh input

end EarlyHeader

/-- The sizes of the buffers for early frames.  They stay for frames of the same format. -/
structure EarlyBuffers where
  format : EarlyFormat
  pieces : Nat
  content : Nat
  deriving Repr

namespace EarlyBuffers

def empty : EarlyBuffers :=
  ⟨.fourth, 0, 0⟩

/-- Buffers that are large enough for the next frame. -/
def fit (buffers : EarlyBuffers) (format : EarlyFormat) (header : EarlyHeader) : EarlyBuffers :=
  if buffers.format = format then
    ⟨format, max buffers.pieces header.pieces, max buffers.content header.content⟩
  else ⟨format, header.pieces, header.content⟩

end EarlyBuffers

/-! ## Blocks -/

inductive EarlyAwaited
  | header
  | raw (size : Nat)
  /-- A block of a kind that is not admitted. -/
  | foreign (size : Nat)
  | nothing
  deriving Repr

namespace EarlyAwaited

def size : EarlyAwaited → Nat
  | header => 3
  | raw size => size
  | foreign size => size
  | nothing => 0

/-- What a block header announces; the last block of a checked frame holds 22 bits of the checksum
of the content. -/
def ofHeader? (checked : Bool) (content : Array UInt8) (bytes : Bytes) : Option EarlyAwaited :=
  let number := Bytes.ofBigEndian bytes
  let size := number % 1 <<< 19
  match number / 1 <<< 22 with
  | 0 => some (.foreign size)
  | 1 => some (.raw size)
  | 2 => some (.foreign 1)
  | _ =>
    let sum := (Checksum.xxh64 content.toList).toNat / 1 <<< 11 % 1 <<< 22
    if checked && number % 1 <<< 22 ≠ sum then none else some .nothing

end EarlyAwaited

/-! ## Frames -/

structure EarlyBody where
  header : EarlyHeader
  /-- Where in the buffer the next block goes. -/
  place : Nat
  /-- All content so far, if it will be checked. -/
  content : Array UInt8

inductive EarlyFrame
  | opening (format : EarlyFormat) (front : Bytes)
  | reading (awaited : EarlyAwaited) (loaded : Bytes) (body : EarlyBody)
  | handing (pending : Bytes) (body : EarlyBody)

/-- What the reader of an early frame works on. -/
structure EarlyWork where
  buffers : EarlyBuffers
  input : Bytes
  out : Array UInt8
  room : Nat

/-- What a step leads to. -/
inductive EarlyOutcome
  | next (frame : EarlyFrame)
  /-- The frame needs more input or more room. -/
  | waiting (frame : EarlyFrame)
  | finished

namespace EarlyFrame

def start (format : EarlyFormat) : EarlyFrame :=
  .opening format []

/-- Reads the header. -/
def openStep (format : EarlyFormat) (front : Bytes) :
    EarlyWork → Option (EarlyOutcome × EarlyWork)
  | ⟨buffers, input, out, room⟩ =>
    match EarlyHeader.take format (front ++ input) with
    | .error .corrupt => none
    | .error .starved =>
      some (.waiting (.opening format (front ++ input)), ⟨buffers, [], out, room⟩)
    | .ok (header, rest) =>
      some (.next (.reading .header [] ⟨header, 0, #[]⟩),
        ⟨buffers.fit format header, rest, out, room⟩)

/-- Takes in a piece. -/
def accept? (awaited : EarlyAwaited) (bytes : Bytes) (capacity : Nat) :
    EarlyBody → Option EarlyFrame
  | ⟨header, place, content⟩ =>
    match awaited with
    | .header =>
      (EarlyAwaited.ofHeader? header.checked content bytes).map fun awaited =>
        .reading awaited [] ⟨header, place, content⟩
    | .raw size =>
      if capacity < place + size then none
      else
        let content := if header.checked then appendBytes content bytes else content
        some (.handing bytes ⟨header, place + size, content⟩)
    | _ => none

/-- Reads a piece; one that comes in parts must fit the buffer for pieces. -/
def readStep (awaited : EarlyAwaited) (loaded : Bytes) (body : EarlyBody) :
    EarlyWork → Option (EarlyOutcome × EarlyWork)
  | ⟨buffers, input, out, room⟩ =>
    let bytes := loaded ++ input.take (awaited.size - loaded.length)
    let rest := input.drop (awaited.size - loaded.length)
    if awaited.size = 0 then some (.finished, ⟨buffers, input, out, room⟩)
    else if bytes.length < awaited.size then
      if buffers.pieces < awaited.size ∧ !input.isEmpty then none
      else some (.waiting (.reading awaited bytes body), ⟨buffers, rest, out, room⟩)
    else
      (accept? awaited bytes buffers.content body).map fun frame =>
        (.next frame, ⟨buffers, rest, out, room⟩)

def handStep (pending : Bytes) (body : EarlyBody) : EarlyWork → Option (EarlyOutcome × EarlyWork)
  | ⟨buffers, input, out, room⟩ =>
    let (given, left) := pending.splitAt room
    let out := appendBytes out given
    if !left.isEmpty then some (.waiting (.handing left body), ⟨buffers, input, out, 0⟩)
    else
      let place := if buffers.content < body.place + body.header.unit then 0 else body.place
      some (.next (.reading .header [] { body with place }),
        ⟨buffers, input, out, room - given.length⟩)

def step (frame : EarlyFrame) (work : EarlyWork) : Option (EarlyOutcome × EarlyWork) :=
  match frame with
  | .opening format front => openStep format front work
  | .reading awaited loaded body => readStep awaited loaded body work
  | .handing pending body => handStep pending body work

end EarlyFrame
end PhaseWire.Compression.Zstd
