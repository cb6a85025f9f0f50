import PhaseWire.Proofs.VarNum.Width

/-
# What the limits of a field let through

Texts and arrays stand behind their length.  A `Delimited` is one of the
two kinds, with its writer and its reader, and `IsLimited` says what the
reader makes of any buffer: it takes exactly the bytes of a length, in
whatever spelling, and of a content of that length which its limit admits.

A text is looked at twice.  Its length in bytes is held against four times
the limit before its characters are counted.  The first look changes
nothing for the second, because a character takes at most four bytes
(`Bytes.length_ofText_le`) and a length that fits its prefix is far below
the place where four times the limit is cut off.
-/

namespace PhaseWire

/-! ## Lengths -/

namespace VarNum

/-- Bytes that are one number of 32 bits and nothing more: all but the last of them say that more
follow, and the number is the low bits of what they weigh, with the highest one as its sign. -/
structure Spells (head : Bytes) (value : Int) : Prop where
  whole : head.length = continued head + 1
  fits : head.length ≤ intBytes
  value_eq : value = Int.bmod (weight head) (2 ^ 32)

theorem Spells.front {head : Bytes} {value : Int} (h : Spells head value) (rest : Bytes) :
    VarNum.front intBytes (head ++ rest) = .complete (weight head) head.length := by
  have hroom : continued head < intBytes := by
    have := h.whole
    have := h.fits
    omega
  have hthere : continued head < head.length := by
    rw [h.whole]
    exact Nat.lt_succ_self _
  have hhead : VarNum.front intBytes head = .complete (weight head) head.length := by
    rw [front_eq, if_pos hroom, if_pos hthere, ← h.whole, List.take_length]
  rw [front_append rest (by rw [hhead]; exact Front.noConfusion), hhead]

theorem spells_of_front {buffer : Bytes} {value used : Nat}
    (h : VarNum.front intBytes buffer = .complete value used) :
    Spells (buffer.take used) (Int32.ofNat value).toInt := by
  obtain ⟨hpos, hroom, hused⟩ := front_complete_bounds h
  have hlength : (buffer.take used).length = used := List.length_take_of_le hused
  have hfront := front_take h
  rw [front_eq] at hfront
  split at hfront
  · split at hfront
    · obtain ⟨hweight, hcount⟩ := Front.complete.inj hfront
      rw [hcount, List.take_of_length_le (Nat.le_of_eq hlength)] at hweight
      refine ⟨hlength.trans hcount.symm, hlength.trans_le hroom, ?_⟩
      rw [hweight]
      exact Int32.toInt_ofNat'
    · cases hfront
  · cases hfront

end VarNum

namespace Reader

open VarNum (Spells)

theorem onBuffer_varInt (buffer : Bytes) : varInt.onBuffer buffer =
    match VarNum.front VarNum.intBytes buffer with
    | .complete value used => (.ok (Int32.ofNat value), buffer.drop used)
    | .incomplete => (.error (.unexpectedEnd 1 0), [])
    | .overlong => (.error .varIntTooLong, buffer.drop VarNum.intBytes) :=
  VarNum.Width.int_isLawful.onBuffer_take buffer

/-- A number is read where it is spelled, whatever follows, and nowhere else. -/
theorem varInt_eq_ok_iff {buffer rest : Bytes} {value : Int32} :
    varInt.onBuffer buffer = (.ok value, rest) ↔
      ∃ head, Spells head value.toInt ∧ buffer = head ++ rest := by
  constructor
  · intro h
    rw [onBuffer_varInt] at h
    split at h
    · rename_i found used hfront
      cases h
      exact ⟨buffer.take used, VarNum.spells_of_front hfront, (List.take_append_drop _ _).symm⟩
    · cases h
    · cases h
  · rintro ⟨head, hspells, rfl⟩
    have hvalue : Int32.ofNat (VarNum.weight head) = value :=
      Int32.toInt_inj.mp (Int32.toInt_ofNat'.trans hspells.value_eq.symm)
    rw [onBuffer_varInt, hspells.front rest]
    dsimp only
    rw [List.drop_left, hvalue]

theorem length_eq_ok_iff {buffer rest : Bytes} {count : Nat} :
    length.onBuffer buffer = (.ok count, rest) ↔
      ∃ head, Spells head count ∧ buffer = head ++ rest := by
  rw [length, bind_eq_ok_iff]
  constructor
  · rintro ⟨prefixed, middle, hprefix, hcount⟩
    obtain ⟨head, hspells, rfl⟩ := varInt_eq_ok_iff.mp hprefix
    split at hcount
    · cases hcount
    · rename_i hpositive
      cases hcount
      rw [Int32.lt_iff_toInt_lt, Int32.toInt_zero] at hpositive
      refine ⟨head, ?_, rfl⟩
      rwa [Int.toNat_of_nonneg (Int.not_lt.mp hpositive)]
  · rintro ⟨head, hspells, rfl⟩
    have hvalue : (Int32.ofNat (VarNum.weight head)).toInt = count :=
      Int32.toInt_ofNat'.trans hspells.value_eq.symm
    refine ⟨Int32.ofNat (VarNum.weight head), rest, varInt_eq_ok_iff.mpr ⟨head, ?_, rfl⟩, ?_⟩
    · rwa [hvalue]
    · have hpositive : ¬ Int32.ofNat (VarNum.weight head) < 0 := by
        rw [Int32.lt_iff_toInt_lt, hvalue, Int32.toInt_zero]
        omega
      rw [if_neg hpositive, hvalue]
      rfl

/-- No prefix holds a length of `2 ^ 31`. -/
theorem lt_of_length {buffer rest : Bytes} {count : Nat}
    (h : length.onBuffer buffer = (.ok count, rest)) : count < 2 ^ 31 := by
  obtain ⟨prefixed, middle, -, hcount⟩ := bind_eq_ok_iff.mp h
  have hlt := prefixed.toInt_lt
  split at hcount
  · cases hcount
  · cases hcount
    omega

end Reader

/-! ## Fields behind a length -/

/-- A kind of fields that stand behind the length of their content. -/
structure Delimited (Value : Type) where
  read : (max : Nat) → Reader Value
  write : Value → Bytes
  content : Value → Bytes
  /-- What a limit is about. -/
  size : Value → Nat
  tooLong : (length max : Nat) → Fault

namespace Delimited

/-- Texts, behind the length of their UTF-8 form and limited in characters. -/
def texts : Delimited String where
  read := Reader.text
  write := Field.text
  content := Bytes.ofText
  size := String.length
  tooLong := .textTooLong

def arrays : Delimited Bytes where
  read := Reader.array
  write := Field.array
  content := id
  size := List.length
  tooLong length _ := .tooLarge length

/-- A field is read exactly if its limit admits it. -/
structure IsLimited {Value : Type} (fields : Delimited Value) (max : Nat) : Prop where
  /-- What was written within the limit is read back, and nothing that follows. -/
  accepts : ∀ value rest, (fields.content value).length < 2 ^ 31 → fields.size value ≤ max →
    (fields.read max).onBuffer (fields.write value ++ rest) = (.ok value, rest)
  /-- What was written beyond it is refused for its length. -/
  refuses : ∀ value rest, (fields.content value).length < 2 ^ 31 → max < fields.size value →
    ∃ length left, max < length
      ∧ (fields.read max).onBuffer (fields.write value ++ rest)
        = (.error (fields.tooLong length max), left)
  /-- Of any bytes those are read that spell a length and go on with a content of that length
  within the limit. -/
  read_eq_ok_iff : ∀ buffer value rest,
    (fields.read max).onBuffer buffer = (.ok value, rest) ↔
      ∃ head, VarNum.Spells head (fields.content value).length
        ∧ buffer = head ++ fields.content value ++ rest ∧ fields.size value ≤ max

/-- It is enough that a field is read where the length of its content stands, if the limit admits
it, and refused for its length if not. -/
theorem IsLimited.of_length {Value : Type} {fields : Delimited Value} {max : Nat}
    (hwrite : ∀ value,
      fields.write value = Field.length (fields.content value).length ++ fields.content value)
    (hread : ∀ buffer value rest, (fields.read max).onBuffer buffer = (.ok value, rest) ↔
      Reader.length.onBuffer buffer
          = (.ok (fields.content value).length, fields.content value ++ rest)
        ∧ fields.size value ≤ max)
    (hrefuse : ∀ value rest, (fields.content value).length < 2 ^ 31 → max < fields.size value →
      ∃ length left, max < length
        ∧ (fields.read max).onBuffer (fields.write value ++ rest)
          = (.error (fields.tooLong length max), left)) :
    fields.IsLimited max where
  accepts value rest hfits hsize := by
    rw [hread, hwrite, List.append_assoc]
    exact ⟨Reader.length_read_write _ _ hfits, hsize⟩
  refuses := hrefuse
  read_eq_ok_iff buffer value rest := by
    rw [hread, Reader.length_eq_ok_iff]
    constructor
    · rintro ⟨⟨head, hspells, rfl⟩, hsize⟩
      exact ⟨head, hspells, (List.append_assoc _ _ _).symm, hsize⟩
    · rintro ⟨head, hspells, rfl, hsize⟩
      exact ⟨⟨head, hspells, List.append_assoc _ _ _⟩, hsize⟩

theorem texts_isLimited (max : Nat) : texts.IsLimited max := by
  refine .of_length (fun _ => rfl) (fun buffer value rest => ?_)
    fun value rest hfits hsize => Reader.onBuffer_text_of_lt rest hfits hsize
  refine Reader.text_eq_ok_iff.trans (and_congr_right fun hlength => ?_)
  exact and_iff_right_of_imp (Reader.length_ofText_le_textBytes (Reader.lt_of_length hlength))

theorem arrays_isLimited (max : Nat) : arrays.IsLimited max :=
  .of_length (fun _ => rfl) (fun _ _ _ => Reader.array_eq_ok_iff) fun value rest hfits hsize =>
    ⟨value.length, value ++ rest, hsize, Reader.onBuffer_array_of_lt rest hfits hsize⟩

/-- The limit of a text and that of an array decide, whatever it is. -/
theorem limits_decide (max : Nat) : texts.IsLimited max ∧ arrays.IsLimited max :=
  ⟨texts_isLimited max, arrays_isLimited max⟩

-- The length may be spelled longer than it is written.
example : (Reader.array 1).onBuffer [0x81, 0x00, 7, 8] = (.ok [7], [8])
    ∧ Field.array [7] = [0x01, 7] := by
  decide

end Delimited
end PhaseWire
