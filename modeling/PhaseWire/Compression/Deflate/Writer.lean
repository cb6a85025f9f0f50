import PhaseWire.Compression.Deflate.Block
import PhaseWire.Compression.Deflate.Parse
import PhaseWire.Compression.Zlib

/-
# Writing zlib streams

Tokens are gathered until the block is full, or until it has much data
that hardly shrinks.  Level zero stores everything.
-/

namespace PhaseWire.Compression.Deflate

/-- A block that is being gathered, and the blocks before it. -/
structure Draft where
  sink : BitSink
  tokens : Array Token
  /-- Where the data of the block starts, and how much there is. -/
  first : Nat
  size : Nat
  /-- The room that the tokens take while they wait. -/
  room : Nat

namespace Draft

/-- Nothing gathered. -/
def start : Draft :=
  ⟨.empty, #[], 0, 0, 1⟩

/-- The most room for the tokens of a block. -/
def maxRoom : Nat := 65528

/-- From this much data on a block ends if it hardly shrinks. -/
def enough : Nat := 31744

/-- Whether the block ends here. -/
def isFull (draft : Draft) : Bool :=
  maxRoom < draft.room || (enough < draft.size && draft.size ≤ draft.room * 115 / 128)

/-- Ends the block, which may be the last one. -/
def finish (stored last : Bool) (data : Array UInt8) (draft : Draft) : Draft :=
  let sink := draft.sink.push last
  let piece := data.extract draft.first (draft.first + draft.size)
  let sink := if stored then writeStored sink piece else writeCoded sink draft.tokens piece
  ⟨sink, #[], draft.first + draft.size, 0, 1⟩

/-- How much data a token spells, and the room that it takes. -/
def cost : Token → Nat × Nat
  | .literal _ => (1, 1)
  | .copy _ length => (length, 3)

/-- Gathers a token.  Eight tokens share a byte of flags. -/
def add (stored : Bool) (data : Array UInt8) (draft : Draft) (token : Token) : Draft :=
  let (size, room) := cost token
  let flags := if draft.tokens.size % 8 = 7 then 1 else 0
  let draft :=
    { draft with
      tokens := draft.tokens.push token
      size := draft.size + size
      room := draft.room + room + flags }
  if draft.isFull then draft.finish stored false data else draft

end Draft

def compress (level : Nat) (data : Array UInt8) : Bytes :=
  let stored := level = 0
  let tokens := parse (.ofLevel level) data
  ((tokens.foldl (Draft.add stored data) .start).finish stored true data).sink.toBytes

end PhaseWire.Compression.Deflate

namespace PhaseWire.Compression.Zlib

/-- A stream of the given data, for a level from zero to nine. -/
def compress (data : Bytes) (level : Int32) : Bytes :=
  let level := min level.toInt.toNat 9
  let data := data.toArray
  [0x78, 0x9c] ++ Deflate.compress level data ++ Bytes.toBigEndian 4 (adler32 data)

end PhaseWire.Compression.Zlib
