import PhaseWire.Bytes

/-
# `xxh64` — the checksum of a frame's content

The 64-bit xxHash with seed zero.  Four lanes each take eight bytes of
every 32; the lanes are folded together and the remaining bytes follow in
pieces of eight, four and one.
-/

namespace PhaseWire.Compression.Zstd.Checksum

def prime1 : UInt64 := 0x9E3779B185EBCA87

def prime2 : UInt64 := 0xC2B2AE3D27D4EB4F

def prime3 : UInt64 := 0x165667B19E3779F9

def prime4 : UInt64 := 0x85EBCA77C2B2AE63

/-- Fifth multiplier. -/
def prime5 : UInt64 := 0x27D4EB2F165667C5

def rotate (value : UInt64) (places : UInt64) : UInt64 :=
  (value <<< places) ||| (value >>> (64 - places))

/-- A lane after eight more bytes. -/
def round (lane input : UInt64) : UInt64 :=
  rotate (lane + input * prime2) 31 * prime1

def merge (sum lane : UInt64) : UInt64 :=
  (sum ^^^ round 0 lane) * prime1 + prime4

/-- The number that the bytes write, least significant byte first. -/
def word (bytes : Bytes) : UInt64 :=
  UInt64.ofNat (Bytes.ofLittleEndian bytes)

structure Lanes where
  a : UInt64
  b : UInt64
  c : UInt64
  d : UInt64

/-- Takes as many pieces of 32 bytes as there are, at most `count`. -/
def stripes : (count : Nat) → Lanes → Bytes → Lanes × Bytes
  | 0, lanes, bytes => (lanes, bytes)
  | count + 1, lanes, bytes =>
    let (stripe, rest) := bytes.splitAt 32
    stripes count
      ⟨round lanes.a (word (stripe.take 8)), round lanes.b (word ((stripe.drop 8).take 8)),
        round lanes.c (word ((stripe.drop 16).take 8)), round lanes.d (word (stripe.drop 24))⟩ rest

/-- Takes the bytes that fill no stripe. -/
def tail : UInt64 → Bytes → UInt64
  | sum, a :: b :: c :: d :: e :: f :: g :: h :: rest =>
    tail (rotate (sum ^^^ round 0 (word [a, b, c, d, e, f, g, h])) 27 * prime1 + prime4) rest
  | sum, a :: b :: c :: d :: rest =>
    tail (rotate (sum ^^^ (word [a, b, c, d] * prime1)) 23 * prime2 + prime3) rest
  | sum, a :: rest => tail (rotate (sum ^^^ (a.toUInt64 * prime5)) 11 * prime1) rest
  | sum, [] => sum

/-- Spreads every bit over the whole sum. -/
def avalanche (sum : UInt64) : UInt64 :=
  let sum := (sum ^^^ (sum >>> 33)) * prime2
  let sum := (sum ^^^ (sum >>> 29)) * prime3
  sum ^^^ (sum >>> 32)

def xxh64 (bytes : Bytes) : UInt64 :=
  let length := bytes.length
  let (sum, rest) :=
    if length < 32 then (prime5, bytes)
    else
      let (lanes, rest) := stripes (length / 32) ⟨prime1 + prime2, prime2, 0, 0 - prime1⟩ bytes
      let sum := rotate lanes.a 1 + rotate lanes.b 7 + rotate lanes.c 12 + rotate lanes.d 18
      (merge (merge (merge (merge sum lanes.a) lanes.b) lanes.c) lanes.d, rest)
  avalanche (tail (sum + UInt64.ofNat length) rest)

end PhaseWire.Compression.Zstd.Checksum
