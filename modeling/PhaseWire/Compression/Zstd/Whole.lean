import PhaseWire.Compression.Zstd.Block
import PhaseWire.Compression.Zstd.Checksum

/-
# Whole frames

A frame whose content is known to fit the room of the reader, and which
lies complete in the input, is decoded at once.  Its blocks are held to
that room and its content to the size that the header gives.
-/

namespace PhaseWire.Compression.Zstd

/-- The checksum of a frame's content. -/
def checksum (content : Array UInt8) : Nat :=
  (Checksum.xxh64 content.toList).toNat % UInt32.size

/-- What follows a frame's last block, if all blocks are there. -/
def behindBlocks? (input : Bytes) : Option Bytes :=
  match taken : BlockHeader.take? input with
  | none => none
  | some (header, rest) =>
    have := BlockHeader.length_of_take? taken
    if (rest.take header.taken).length < header.taken then none
    else if header.last then some (rest.drop header.taken)
    else behindBlocks? (rest.drop header.taken)
termination_by input.length
decreasing_by
  simp only [List.length_drop]
  omega

def isComplete (header : FrameHeader) (input : Bytes) : Bool :=
  match behindBlocks? input with
  | none => false
  | some rest => !header.checked || (rest.take 4).length = 4

def wholeBlock? (site : Site) (header : BlockHeader) (bytes : Bytes) (carry : Carry)
    (shelf : Array UInt8) (store : Store) : Option Decoded :=
  match header.kind with
  | .raw =>
    if site.bound < store.place + header.size then none
    else some ⟨carry, shelf, store.append bytes.toArray header.size⟩
  | .repeated =>
    if site.bound < store.place + header.size then none
    else some ⟨carry, shelf, store.appendRepeated (bytes.headD 0) header.size⟩
  | .compressed => site.decode? bytes carry shelf store

/-- Decodes all blocks of a frame, and gives what follows them. -/
def wholeBlocks? (site : Site) (input : Bytes) : Decoded → Option (Decoded × Bytes)
  | ⟨carry, shelf, store⟩ =>
    match taken : BlockHeader.take? input with
    | none => none
    | some (header, rest) =>
      have := BlockHeader.length_of_take? taken
      match wholeBlock? site header (rest.take header.taken) carry shelf store with
      | none => none
      | some decoded =>
        if header.last then some (decoded, rest.drop header.taken)
        else wholeBlocks? site (rest.drop header.taken) decoded
termination_by input.length
decreasing_by
  simp only [List.length_drop]
  omega

/-- Decodes a complete frame behind its header, and gives its content, the shelf and the rest. -/
def wholeFrame? (header : FrameHeader) (room : Nat) (shelf : Array UInt8) (input : Bytes) :
    Option (Array UInt8 × Array UInt8 × Bytes) := do
  let site : Site := ⟨header.blockMax, room, true⟩
  let (decoded, rest) ← wholeBlocks? site input ⟨.start, shelf, .empty⟩
  let content := decoded.store.cells.extract 0 decoded.store.place
  let sum := Bytes.ofLittleEndian (rest.take 4)
  if header.dictionary ≠ 0 ∨ header.contentSize?.any (· ≠ content.size) then none
  else if header.checked then
    if sum = checksum content then return (content, decoded.shelf, rest.drop 4) else none
  else return (content, decoded.shelf, rest)

end PhaseWire.Compression.Zstd
