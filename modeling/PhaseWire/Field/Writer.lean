import PhaseWire.VarNum

/-
# `Field` — the fields of a packet, as written

Each function gives the bytes of one field.  A length prefix is a 32-bit
number, so it holds the low 32 bits of the length.
-/

namespace PhaseWire.Field

def varInt (value : Int32) : Bytes :=
  VarNum.encodeInt value

def varLong (value : Int64) : Bytes :=
  VarNum.encodeLong value

def flag (value : Bool) : Bytes :=
  [if value then 1 else 0]

def byte (value : UInt8) : Bytes :=
  [value]

def int16 (value : Int16) : Bytes :=
  Bytes.toBigEndian 2 value.toUInt16.toNat

def word16 (value : UInt16) : Bytes :=
  Bytes.toBigEndian 2 value.toNat

def int64 (value : Int64) : Bytes :=
  Bytes.toBigEndian 8 value.toUInt64.toNat

def uuid (value : Nat) : Bytes :=
  Bytes.toBigEndian 16 value

def length (count : Nat) : Bytes :=
  varInt (Int32.ofNat count)

def array (value : Bytes) : Bytes :=
  length value.length ++ value

/-- A text behind the length of its UTF-8 form. -/
def text (value : String) : Bytes :=
  array (Bytes.ofText value)

end PhaseWire.Field
