import PhaseWire.Compression.Lz4
import PhaseWire.Compression.Match

/-
# Writing LZ4 blocks

Tokens are gathered into sequences: literals are kept until a copy comes,
and what is left at the end is the last sequence.
-/

namespace PhaseWire.Compression.Lz4

/-- The copies that a block can express. -/
def reach : Reach := ⟨65535, minCopy, UInt32.size⟩

/-- The bytes behind a token that continue a length of at least fifteen. -/
def extension (length : Nat) : Bytes :=
  if length < 15 then []
  else List.replicate ((length - 15) / 255) 255 ++ [((length - 15) % 255).toUInt8]

/-- The token of two lengths. -/
def tokenByte (literals copied : Nat) : UInt8 :=
  (16 * min literals 15 + min copied 15).toUInt8

def writeSequence (out : Array UInt8) (literals : Array UInt8) (distance length : Nat) :
    Array UInt8 :=
  let copied := length - minCopy
  let out := out.push (tokenByte literals.size copied)
  let out := appendBytes out (extension literals.size)
  let out := out ++ literals
  let out := appendBytes out (Bytes.toLittleEndian 2 distance)
  appendBytes out (extension copied)

def writeLast (out : Array UInt8) (literals : Array UInt8) : Array UInt8 :=
  let out := out.push (tokenByte literals.size 0)
  appendBytes out (extension literals.size) ++ literals

def writeToken : Array UInt8 × Array UInt8 → Token → Array UInt8 × Array UInt8
  | (out, literals), .literal byte => (out, literals.push byte)
  | (out, literals), .copy distance length => (writeSequence out literals distance length, #[])

def compress (data : Bytes) : Bytes :=
  let (out, literals) := (Token.ofBytes reach data).foldl writeToken (#[], #[])
  (writeLast out literals).toList

end PhaseWire.Compression.Lz4
