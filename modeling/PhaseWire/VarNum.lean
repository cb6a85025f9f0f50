import PhaseWire.Bytes
import PhaseWire.Fault

/-
# `VarNum` — variable-length integers

A number is written in groups of seven bits, least significant group
first, and every byte but the last has its high bit set.  Values are read
as unsigned two's complement, so a negative number takes the full width:
five bytes for 32 bits, ten for 64.

There are two readers.  `peek` looks at the front of a buffer and reports
how many bytes the number takes, or that it is not complete yet; it is
what framing needs.  The consuming reader of `PhaseWire.Field.Reader`
takes byte after byte; it is what packet fields need.  Both refuse a
number whose last admitted byte still has its high bit set, and both drop
the bits that the width does not hold.
-/

namespace PhaseWire

namespace VarNum

def intBytes : Nat := 5

def longBytes : Nat := 10

def groups : (room : Nat) → (value : Nat) → Bytes
  | 0, _ => []
  | room + 1, value =>
    if value < 128 then [value.toUInt8]
    else (value % 128 + 128).toUInt8 :: groups room (value / 128)

/-- The 32-bit number in bytes. -/
def encodeInt (value : Int32) : Bytes :=
  groups intBytes value.toUInt32.toNat

/-- The 64-bit number in bytes. -/
def encodeLong (value : Int64) : Bytes :=
  groups longBytes value.toUInt64.toNat

/-- How many bytes `encodeInt` writes, by the ranges of the unsigned value. -/
def intSize (value : Int32) : Nat :=
  let magnitude := value.toUInt32.toNat
  if magnitude < 0x80 then 1
  else if magnitude < 0x4000 then 2
  else if magnitude < 0x200000 then 3
  else if magnitude < 0x10000000 then 4
  else 5

/-- How many bytes `encodeLong` writes, by the position of the highest bit that is set. -/
def longSize (value : Int64) : Nat :=
  value.toUInt64.toNat.log2 / 7 + 1

/-- What the front of a buffer holds. -/
inductive Front
  /-- A whole number and the bytes it takes. -/
  | complete (value used : Nat)
  /-- The buffer ends inside the number. -/
  | incomplete
  /-- The last admitted byte is not the last of the number. -/
  | overlong
  deriving DecidableEq, Repr

/-- The number at the front of a buffer, of at most `room` bytes. -/
def front : (room : Nat) → Bytes → Front
  | 0, _ => .overlong
  | _ + 1, [] => .incomplete
  | room + 1, byte :: rest =>
    if byte < 128 then .complete byte.toNat 1
    else match front room rest with
      | .complete value used => .complete (byte.toNat - 128 + 128 * value) (used + 1)
      | .incomplete => .incomplete
      | .overlong => .overlong

/-- The 32-bit number at the front of a buffer and the bytes it takes; `none` asks for more. -/
def peekInt (buffer : Bytes) : Except Fault (Option (Int32 × Nat)) :=
  match front intBytes buffer with
  | .complete value used => .ok (some (Int32.ofNat value, used))
  | .incomplete => .ok none
  | .overlong => .error .varIntTooLong

/-- The 64-bit number at the front of a buffer and the bytes it takes; `none` asks for more. -/
def peekLong (buffer : Bytes) : Except Fault (Option (Int64 × Nat)) :=
  match front longBytes buffer with
  | .complete value used => .ok (some (Int64.ofNat value, used))
  | .incomplete => .ok none
  | .overlong => .error .varLongTooLong

end VarNum
end PhaseWire
