import PhaseWire.Compression.Match
import PhaseWire.Compression.Zstd.Frame

/-
# Writing Zstandard frames

Literals become raw blocks.  Each copy becomes a compressed block of its
own: no literals and one sequence, whose three tables name a single symbol
each, so that only extra bits are left to write.  The last block is empty.
-/

namespace PhaseWire.Compression.Zstd

/-- The copies that are written; a short one would take more bytes than it saves. -/
def reach : Reach := ⟨131072, 16, 131072⟩

/-- The header of a block that is not the last of its frame. -/
def blockHeader (kind size : Nat) : Bytes :=
  Bytes.toLittleEndian 3 (8 * size + 2 * kind)

/-- Writes literals as raw blocks. -/
def writeRaw : (fuel : Nat) → Array UInt8 → Bytes → Array UInt8
  | 0, out, _ => out
  | _, out, [] => out
  | fuel + 1, out, literals =>
    let (block, rest) := literals.splitAt blockLimit
    writeRaw fuel (appendBytes (appendBytes out (blockHeader 0 block.length)) block) rest

/-- The last entry of a table whose base value does not exceed `value`. -/
def symbolOf (kind : CodeKind) (value : Nat) : Nat :=
  kind.values.foldl (fun count entry => if entry.1 ≤ value then count + 1 else count) 0 - 1

def copyBlock (distance length : Nat) : Bytes :=
  let offset := distance + 3
  let offsetSymbol := symbolOf .offset offset
  let (offsetBase, offsetBits) := CodeKind.offset.values.getD offsetSymbol (0, 0)
  let lengthSymbol := symbolOf .copyLength length
  let (lengthBase, lengthBits) := CodeKind.copyLength.values.getD lengthSymbol (0, 0)
  let bits := offsetBits + lengthBits
  let stream := 1 <<< bits + (offset - offsetBase) * 1 <<< lengthBits + (length - lengthBase)
  [0, 1, 0x54, 0, offsetSymbol.toUInt8, lengthSymbol.toUInt8]
    ++ Bytes.toLittleEndian (bits / 8 + 1) stream

/-- Takes in a token: a literal waits, a copy is written behind the literals before it. -/
def writeToken : Array UInt8 × Array UInt8 → Token → Array UInt8 × Array UInt8
  | (out, literals), .literal byte => (out, literals.push byte)
  | (out, literals), .copy distance length =>
    let out := writeRaw literals.size out literals.toList
    let block := copyBlock distance length
    (appendBytes (appendBytes out (blockHeader 2 block.length)) block, #[])

/-- The magic number, a descriptor that announces a content size of eight bytes, and a window of
131072 bytes. -/
def frameStart : Bytes :=
  [0x28, 0xB5, 0x2F, 0xFD, 0xC0, 0x38]

def compress (data : Bytes) : Bytes :=
  let start := (frameStart ++ Bytes.toLittleEndian 8 data.length).toArray
  let (out, literals) := (Token.ofBytes reach data).foldl writeToken (start, #[])
  (appendBytes (writeRaw literals.size out literals.toList) [1, 0, 0]).toList

end PhaseWire.Compression.Zstd
