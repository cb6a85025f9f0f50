import PhaseWire.Bytes
import PhaseWire.Text.Number

/-
# Hexadecimal text

A byte is two digits.  Digits are written in lower case and read in either.
-/

namespace PhaseWire.Text

def hexDigits (width value : Nat) : String :=
  let digits := Nat.toDigits 16 value
  String.ofList (List.replicate (width - digits.length) '0' ++ digits)

def toHex (bytes : Bytes) : String :=
  String.join (bytes.map fun byte => hexDigits 2 byte.toNat)

def hexByte? (high low : Char) : Option UInt8 := do
  return (16 * (← digit? 16 high) + (← digit? 16 low)).toUInt8

/-- Reads pairs of digits, after the bytes in `done`. -/
def ofHexFrom (done : Array UInt8) : List Char → Option Bytes
  | [] => some done.toList
  | [_] => none
  | high :: low :: rest =>
    match hexByte? high low with
    | none => none
    | some byte => ofHexFrom (done.push byte) rest

def ofHex? (text : String) : Option Bytes :=
  ofHexFrom #[] text.toList

end PhaseWire.Text
