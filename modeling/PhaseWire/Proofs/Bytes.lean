import Mathlib.Algebra.Group.Nat.Defs
import PhaseWire.Bytes

/-
# Texts and fixed-width numbers as bytes

A text is read back from its UTF-8 form, and no other bytes are read as
it (`toText?_eq_some_iff`); the form takes at most four bytes a character,
which is what a limit in characters rests on.  A number is read back from
its low bytes up to the part that they do not hold.
-/

namespace PhaseWire.Bytes

/-! ## Texts -/

private theorem loop_eq (buffer : ByteArray) (place : Nat) (taken : List UInt8) :
    ByteArray.toList.loop buffer place taken = taken.reverse ++ buffer.data.toList.drop place := by
  fun_induction ByteArray.toList.loop buffer place taken with
  | case1 place taken hplace ih =>
      have hlt : place < buffer.data.toList.length := hplace
      have hget : buffer.get! place = buffer.data.toList[place] := by
        rw [Array.getElem_toList]
        exact getElem!_pos buffer.data place hplace
      rw [ih, List.drop_eq_getElem_cons hlt, hget, List.reverse_cons, List.append_assoc]
      rfl
  | case2 place taken hplace =>
      have hdone : buffer.data.toList.drop place = [] :=
        List.drop_eq_nil_of_le (Nat.le_of_not_lt hplace)
      rw [hdone, List.append_nil]

theorem toList_eq_data (buffer : ByteArray) : buffer.toList = buffer.data.toList := by
  rw [ByteArray.toList, loop_eq]
  rfl

theorem length_ofText (text : String) : (ofText text).length = text.utf8ByteSize := by
  rw [ofText, toList_eq_data, Array.length_toList]
  rfl

theorem toByteArray_ofText (text : String) : (ofText text).toByteArray = text.toByteArray := by
  rw [ofText, toList_eq_data]
  apply ByteArray.ext
  rw [List.data_toByteArray, Array.toArray_toList]

theorem toText?_eq_some_iff {bytes : Bytes} {text : String} :
    toText? bytes = some text ↔ bytes = ofText text := by
  constructor
  · intro h
    rw [toText?, String.fromUTF8?] at h
    split at h
    · cases h
      rw [ofText, toList_eq_data]
      exact List.toList_data_toByteArray.symm
    · cases h
  · rintro rfl
    rw [toText?, toByteArray_ofText, String.fromUTF8?, dif_pos text.isValidUTF8]
    rfl

/-- A character takes at most four bytes. -/
theorem length_ofText_le (text : String) : (ofText text).length ≤ text.length * 4 := by
  obtain ⟨chars, rfl⟩ := text.exists_eq_ofList
  rw [length_ofText, String.length_ofList]
  induction chars with
  | nil => exact Nat.le_refl 0
  | cons first rest ih =>
      have hsplit :
          String.ofList (first :: rest) = String.singleton first ++ String.ofList rest := by
        rw [String.singleton_eq_ofList, ← String.ofList_append]
        rfl
      have hfirst := first.utf8Size_le_four
      rw [hsplit, String.utf8ByteSize_append, String.utf8ByteSize_singleton, List.length_cons]
      omega

/-! ## Numbers -/

theorem ofBigEndian_append (bytes : Bytes) (last : UInt8) :
    ofBigEndian (bytes ++ [last]) = ofBigEndian bytes * 256 + last.toNat := by
  rw [ofBigEndian, List.foldl_append]
  rfl

theorem ofBigEndian_toBigEndian : ∀ (width value : Nat),
    ofBigEndian (toBigEndian width value) = value % 256 ^ width := by
  intro width
  induction width with
  | zero =>
      intro value
      rw [Nat.pow_zero, Nat.mod_one]
      rfl
  | succ width ih =>
      intro value
      have hlast : value.toUInt8.toNat = value % 256 := UInt8.toNat_ofNat'
      rw [toBigEndian, ofBigEndian_append, ih, hlast, Nat.pow_succ', Nat.mod_mul]
      omega

end PhaseWire.Bytes
