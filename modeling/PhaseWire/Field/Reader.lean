import PhaseWire.VarNum

/-
# `Reader` — the fields of a packet, as read

A reader consumes a buffer from the front.  It answers with a value or a
fault, and in both cases with the bytes that are left: a failed field
leaves the buffer where the field gave up.  Fixed-width fields and the
contents of texts and arrays check the length first, so they take all of
their bytes or none.
-/

namespace PhaseWire

/-- Takes a value off the front of a buffer. -/
abbrev Reader (α : Type) := ExceptT Fault (StateM Bytes) α

namespace Reader

variable {α : Type}

/-- The outcome on a buffer, and what is left of the buffer. -/
def onBuffer (reader : Reader α) (buffer : Bytes) : Except Fault α × Bytes :=
  reader.run.run buffer

/-- Fails and leaves the buffer as it is. -/
def fail (fault : Fault) : Reader α :=
  throw fault

/-- How many bytes are left. -/
def remaining : Reader Nat :=
  return (← get).length

/-- Fails unless at least `needed` bytes are left. -/
def ensure (needed : Nat) : Reader Unit := do
  let left ← remaining
  if left < needed then fail (.unexpectedEnd needed left)

/-- The next `count` bytes, all of them or none. -/
def bytes (count : Nat) : Reader Bytes := do
  ensure count
  modifyGet fun buffer => buffer.splitAt count

def rest : Reader Bytes :=
  modifyGet fun buffer => (buffer, [])

def byte : Reader UInt8 := do
  match ← get with
  | [] => fail (.unexpectedEnd 1 0)
  | first :: others =>
    set others
    return first

/-- The number that the next groups write, at most `room` of them. -/
def groups (tooLong : Fault) : (room : Nat) → Reader Nat
  | 0 => fail tooLong
  | room + 1 => do
    let first ← byte
    if first < 128 then return first.toNat
    else return first.toNat - 128 + 128 * (← groups tooLong room)

def varInt : Reader Int32 :=
  return Int32.ofNat (← groups .varIntTooLong VarNum.intBytes)

def varLong : Reader Int64 :=
  return Int64.ofNat (← groups .varLongTooLong VarNum.longBytes)

/-- The natural number in the next `width` bytes, most significant byte first. -/
def bigEndian (width : Nat) : Reader Nat :=
  return Bytes.ofBigEndian (← bytes width)

/-- A byte as a truth value: only zero is false. -/
def flag : Reader Bool :=
  return (← byte) != 0

def int16 : Reader Int16 :=
  return Int16.ofNat (← bigEndian 2)

def word16 : Reader UInt16 :=
  return UInt16.ofNat (← bigEndian 2)

def int32 : Reader Int32 :=
  return Int32.ofNat (← bigEndian 4)

def int64 : Reader Int64 :=
  return Int64.ofNat (← bigEndian 8)

def float32Bits : Reader UInt32 :=
  return UInt32.ofNat (← bigEndian 4)

def float64Bits : Reader UInt64 :=
  return UInt64.ofNat (← bigEndian 8)

def uuid : Reader Nat :=
  bigEndian 16

def length : Reader Nat := do
  let prefixed ← varInt
  if prefixed < 0 then fail (.negativeLength prefixed)
  else return prefixed.toInt.toNat

/-- The largest number of bytes that a text of `max` characters may declare. -/
def textBytes (max : Nat) : Nat :=
  min (max * 4) (UInt64.size - 1)

/-- A text of at most `max` characters, behind the length of its UTF-8 form. -/
def text (max : Nat) : Reader String := do
  let declared ← length
  if textBytes max < declared then fail (.textTooLong declared max)
  let raw ← bytes declared
  match Bytes.toText? raw with
  | none => fail .malformedText
  | some found =>
    if max < found.length then fail (.textTooLong found.length max)
    else return found

/-- At most `max` bytes, behind their number. -/
def array (max : Nat) : Reader Bytes := do
  let declared ← length
  if max < declared then fail (.tooLarge declared)
  bytes declared

end Reader
end PhaseWire
