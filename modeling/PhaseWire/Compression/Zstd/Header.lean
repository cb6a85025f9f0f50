import PhaseWire.Compression.Run

/-
# `FrameHeader`, `BlockHeader` — what stands in front of a frame and a block

A frame begins with a magic number and says how large its window is, how
long its content, whether a checksum follows and which dictionary it
needs.  Frames of another magic number carry nothing and are skipped.  A
block says how it is written, how large it is and whether it is the last.
-/

namespace PhaseWire.Compression.Zstd

/-! ## Numbers -/

/-- The next `count` bytes as a number, least significant byte first. -/
def takeNumber (count : Nat) (input : Bytes) : Except Stop (Nat × Bytes) :=
  let taken := input.take count
  if taken.length < count then .error .starved
  else .ok (Bytes.ofLittleEndian taken, input.drop count)

/-! ## Frame headers -/

/-- The most bytes that a block may produce. -/
def blockLimit : Nat := 131072

/-- The largest exponent of a window, above that of the smallest window. -/
def windowExponent : Nat := 21

structure FrameHeader where
  window : Nat
  contentSize? : Option Nat
  /-- Whether a checksum follows the blocks. -/
  checked : Bool
  /-- The number of the dictionary that is needed, or zero. -/
  dictionary : Nat
  deriving Repr

/-- The most bytes that a block of the frame may take or produce. -/
def FrameHeader.blockMax (header : FrameHeader) : Nat :=
  min header.window blockLimit

inductive Opening
  | content (header : FrameHeader)
  | skippable (size : Nat)
  deriving Repr

namespace Opening

/-- The bytes that open a frame with content. -/
def magic : Bytes :=
  [0x28, 0xB5, 0x2F, 0xFD]

/-- The bytes that open a frame to be skipped, but for the low half of the first one. -/
def skipMagic : Bytes :=
  [0x50, 0x2A, 0x4D, 0x18]

/-- Whether four bytes open a frame to be skipped. -/
def isSkipMagic (bytes : Bytes) : Bool :=
  Bytes.ofLittleEndian bytes / 16 = Bytes.ofLittleEndian skipMagic / 16

/-- Whether a few bytes may be the front of an opening. -/
def mayBegin (input : Bytes) : Bool :=
  let taken := input.take 4
  taken ++ magic.drop taken.length = magic || isSkipMagic (taken ++ skipMagic.drop taken.length)

/-- The window that a descriptor byte gives. -/
def windowSize (descriptor : Nat) : Nat :=
  let base := 1 <<< (10 + descriptor / 8)
  base + base / 8 * (descriptor % 8)

/-- Reads the header of a frame with content, behind its magic number. -/
def takeHeader (input : Bytes) : Except Stop (FrameHeader × Bytes) := do
  let (descriptor, input) ← takeNumber 1 input
  let single := descriptor / 32 % 2 = 1
  let (window, input) ← if single then .ok (0, input) else takeNumber 1 input
  let idWidth := match descriptor % 4 with | 0 => 0 | 1 => 1 | 2 => 2 | _ => 4
  let (dictionary, input) ← takeNumber idWidth input
  let sizeWidth :=
    match descriptor / 64 with | 0 => if single then 1 else 0 | 1 => 2 | 2 => 4 | _ => 8
  let (size, input) ← takeNumber sizeWidth input
  let size := if sizeWidth = 2 then size + 256 else size
  let known := sizeWidth ≠ 0 ∧ size ≠ UInt64.size - 1
  let tooWide := !single && windowExponent < window / 8
  if descriptor / 8 % 2 = 1 ∨ tooWide then .error .corrupt
  else
    let header : FrameHeader :=
      { window := if single then size else windowSize window
        contentSize? := if known then some size else none
        checked := descriptor / 4 % 2 = 1
        dictionary }
    return (header, input)

/-- Reads the opening of a frame.  It is starved as long as more bytes can make it one. -/
def take (input : Bytes) : Except Stop (Opening × Bytes) := do
  if (input.take 5).length < 5 then
    if input.isEmpty || mayBegin input then .error .starved else .error .corrupt
  else if input.take 4 = magic then
    let (header, input) ← takeHeader (input.drop 4)
    return (.content header, input)
  else if isSkipMagic (input.take 4) then
    let (size, input) ← takeNumber 4 (input.drop 4)
    return (.skippable size, input)
  else .error .corrupt

end Opening

/-! ## Block headers -/

inductive BlockKind
  | raw
  | repeated
  | compressed
  deriving DecidableEq, Repr

/-- What stands in front of a block. -/
structure BlockHeader where
  kind : BlockKind
  /-- The size of the block, or how often its byte is repeated. -/
  size : Nat
  last : Bool
  deriving Repr

namespace BlockHeader

/-- The header that a number of three bytes writes, if its kind is in use. -/
def ofNumber? (number : Nat) : Option BlockHeader :=
  let kind? : Option BlockKind :=
    match number / 2 % 4 with
    | 0 => some .raw
    | 1 => some .repeated
    | 2 => some .compressed
    | _ => none
  kind?.map fun kind => ⟨kind, number / 8, number % 2 = 1⟩

/-- How many bytes follow the header. -/
def taken (header : BlockHeader) : Nat :=
  match header.kind with
  | .repeated => 1
  | _ => header.size

def take? (input : Bytes) : Option (BlockHeader × Bytes) :=
  let front := input.take 3
  if front.length < 3 then none
  else (ofNumber? (Bytes.ofLittleEndian front)).map (·, input.drop 3)

theorem length_of_take? {input rest : Bytes} {header : BlockHeader}
    (taken : take? input = some (header, rest)) : rest.length + 3 = input.length := by
  simp only [take?] at taken
  split at taken
  · exact absurd taken (by simp)
  · rename_i long
    obtain ⟨_, _, equal⟩ := Option.map_eq_some_iff.1 taken
    obtain ⟨rfl, rfl⟩ := Prod.mk.inj equal
    simp only [List.length_take, List.length_drop] at long ⊢
    omega

end BlockHeader
end PhaseWire.Compression.Zstd
