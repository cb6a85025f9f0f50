import PhaseWire.Bytes

/-
# `BitSource`, `BitSink` — bits packed into bytes, lowest bit first

Deflate and the headers of Zstandard pack bits from the lowest bit of a
byte upwards.  A source hands out one bit at a time and knows how many are
left, which is what bounds every loop over it.
-/

namespace PhaseWire.Compression

/-- Bytes of which some low bits of the first are taken already. -/
structure BitSource where
  bytes : Bytes
  /-- Bits taken from the first byte, fewer than eight. -/
  used : Nat
  deriving Repr

namespace BitSource

def ofBytes (bytes : Bytes) : BitSource :=
  ⟨bytes, 0⟩

def size (source : BitSource) : Nat :=
  8 * source.bytes.length - source.used

def next? (source : BitSource) : Option (Nat × BitSource) :=
  match source.bytes with
  | [] => none
  | byte :: rest =>
    let bit := (byte.toNat >>> source.used) % 2
    if source.used = 7 then some (bit, ⟨rest, 0⟩)
    else some (bit, ⟨byte :: rest, source.used + 1⟩)

/-- The number in the next `count` bits, lowest bit first. -/
def take? (source : BitSource) : (count : Nat) → Option (Nat × BitSource)
  | 0 => some (0, source)
  | count + 1 => do
    let (bit, source) ← source.next?
    let (high, source) ← source.take? count
    return (bit + 2 * high, source)

def append (source : BitSource) (more : Bytes) : BitSource :=
  ⟨source.bytes ++ more, source.used⟩

/-- The bytes behind the current one, or all of them at a byte's start. -/
def align (source : BitSource) : Bytes :=
  if source.used = 0 then source.bytes else source.bytes.drop 1

end BitSource

/-- Bytes being filled with bits from the lowest upwards. -/
structure BitSink where
  bytes : Array UInt8
  /-- The bits of the byte in progress. -/
  hold : Nat
  /-- How many they are, fewer than eight. -/
  held : Nat

namespace BitSink

/-- Nothing written. -/
def empty : BitSink :=
  ⟨#[], 0, 0⟩

def push (sink : BitSink) (bit : Bool) : BitSink :=
  let hold := if bit then sink.hold + 1 <<< sink.held else sink.hold
  if sink.held = 7 then ⟨sink.bytes.push hold.toUInt8, 0, 0⟩
  else ⟨sink.bytes, hold, sink.held + 1⟩

/-- Writes the low `count` bits of a number, lowest first. -/
def pushBits (sink : BitSink) : (count value : Nat) → BitSink
  | 0, _ => sink
  | count + 1, value => (sink.push (value % 2 = 1)).pushBits count (value / 2)

/-- Writes the low `count` bits of a number, highest first. -/
def pushCode (sink : BitSink) : (count value : Nat) → BitSink
  | 0, _ => sink
  | count + 1, value => (sink.push (value / 1 <<< count % 2 = 1)).pushCode count value

/-- Fills the last byte up with zero bits. -/
def align : BitSink → BitSink
  | ⟨bytes, hold, held⟩ =>
    if held = 0 then ⟨bytes, 0, 0⟩ else ⟨bytes.push hold.toUInt8, 0, 0⟩

/-- The bytes, the last one filled up with zero bits. -/
def toBytes (sink : BitSink) : Bytes :=
  sink.align.bytes.toList

end BitSink
end PhaseWire.Compression
