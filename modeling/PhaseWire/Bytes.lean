/-
# `Bytes` — byte strings and fixed-width numbers on them

A byte string is a list of bytes, so that every statement about the wire
is a statement about lists.  The fixed-width fields of a packet are
big-endian; `ofBigEndian` and `toBigEndian` are the two directions, on
natural numbers, and the field types wrap them.
-/

namespace PhaseWire

abbrev Bytes := List UInt8

namespace Bytes

/-- The number that the bytes write, most significant byte first. -/
def ofBigEndian (bytes : Bytes) : Nat :=
  bytes.foldl (fun value byte => value * 256 + byte.toNat) 0

/-- The low `width` bytes of a number, most significant byte first. -/
def toBigEndian : (width : Nat) → (value : Nat) → Bytes
  | 0, _ => []
  | width + 1, value => toBigEndian width (value / 256) ++ [value.toUInt8]

/-- The number that the bytes write, least significant byte first. -/
def ofLittleEndian (bytes : Bytes) : Nat :=
  bytes.foldr (fun byte value => value * 256 + byte.toNat) 0

/-- The low `width` bytes of a number, least significant byte first. -/
def toLittleEndian : (width : Nat) → (value : Nat) → Bytes
  | 0, _ => []
  | width + 1, value => value.toUInt8 :: toLittleEndian width (value / 256)

def ofText (text : String) : Bytes :=
  text.toByteArray.toList

/-- The text that the bytes write in UTF-8, if they are well formed. -/
def toText? (bytes : Bytes) : Option String :=
  String.fromUTF8? bytes.toByteArray

def pieces (size : Nat) (bytes : Bytes) : List Bytes :=
  match bytes with
  | [] => []
  | first :: rest => (first :: rest.take (size - 1)) :: pieces size (rest.drop (size - 1))
termination_by bytes.length
decreasing_by simp only [List.length_drop, List.length_cons]; omega

@[simp] theorem length_toBigEndian (width value : Nat) :
    (toBigEndian width value).length = width := by
  induction width generalizing value with
  | zero => rfl
  | succ width ih => simp [toBigEndian, ih]

@[simp] theorem length_toLittleEndian (width value : Nat) :
    (toLittleEndian width value).length = width := by
  induction width generalizing value with
  | zero => rfl
  | succ width ih => simp [toLittleEndian, ih]

end Bytes
end PhaseWire
