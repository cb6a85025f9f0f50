import PhaseWire.Text.Number

/-
# Numerals

The decimal digits of a number (`Nat.toDigits`) are read back as that
number.  What a reader of digits needs to know of them is collected in
`IsNumeral`: there is one, all of them are digits, they write the number,
and a zero stands in front only where it stands alone.
-/

namespace PhaseWire.Text

theorem digit?_digitChar : ∀ {n : Nat}, n < 10 → digit? 10 n.digitChar = some n := by
  decide

theorem addDigits_append (base value : Nat) (front back : List Char) :
    addDigits base value (front ++ back)
      = (addDigits base value front).bind fun value => addDigits base value back :=
  List.foldlM_append

/-- The digits of a decimal number. -/
structure IsNumeral (digits : List Char) (n : Nat) : Prop where
  ofDigits? : Text.ofDigits? 10 digits = some n
  isDigit : ∀ c ∈ digits, (digit? 10 c).isSome
  ne_nil : digits ≠ []
  /-- No zeros lead. -/
  zero_alone : ∀ rest, digits = '0' :: rest → rest = []

theorem IsNumeral.exists_cons {digits : List Char} {n : Nat} (h : IsNumeral digits n) :
    ∃ first others, digits = first :: others ∧ (digit? 10 first).isSome := by
  obtain ⟨first, others, hdigits⟩ := List.exists_cons_of_ne_nil h.ne_nil
  exact ⟨first, others, hdigits, h.isDigit first (hdigits ▸ List.mem_cons_self ..)⟩

theorem isNumeral_digitChar {n : Nat} (h : n < 10) : IsNumeral [n.digitChar] n where
  ofDigits? := by
    have hdigit := digit?_digitChar h
    simp [Text.ofDigits?, addDigits, hdigit]
  isDigit c hc := by
    rw [List.mem_singleton.mp hc, digit?_digitChar h]
    rfl
  ne_nil := List.cons_ne_nil _ _
  zero_alone rest hrest := (List.cons.inj hrest).2.symm

/-- A digit more is the number times ten and the digit. -/
theorem IsNumeral.concat {digits : List Char} {n d : Nat} (h : IsNumeral digits n) (hpos : 0 < n)
    (hd : d < 10) : IsNumeral (digits ++ [d.digitChar]) (n * 10 + d) where
  ofDigits? := by
    have hdigits := h.ofDigits?
    rw [Text.ofDigits?, if_neg (by simpa using h.ne_nil)] at hdigits
    rw [Text.ofDigits?, if_neg (by simp), addDigits_append, hdigits]
    simp [addDigits, digit?_digitChar hd]
  isDigit c hc := by
    rcases List.mem_append.mp hc with hc | hc
    · exact h.isDigit c hc
    · rw [List.mem_singleton.mp hc, digit?_digitChar hd]
      rfl
  ne_nil := by simp
  zero_alone rest hrest := by
    obtain ⟨first, others, hfirst, -⟩ := h.exists_cons
    rw [hfirst, List.cons_append] at hrest
    obtain ⟨rfl, -⟩ := List.cons.inj hrest
    have hzero := h.ofDigits?
    rw [hfirst, h.zero_alone others hfirst] at hzero
    -- a zero alone is not what a digit is put behind
    have : (0 : Nat) = n := Option.some.inj hzero
    omega

theorem isNumeral_toDigits (n : Nat) : IsNumeral (Nat.toDigits 10 n) n := by
  induction n using Nat.strongRecOn with
  | ind n ih =>
    rcases Nat.lt_or_ge n 10 with hsmall | hlarge
    · rw [Nat.toDigits_of_lt_base hsmall]
      exact isNumeral_digitChar hsmall
    · rw [Nat.toDigits_of_base_le (by decide) hlarge]
      have hconcat := (ih (n / 10) (by omega)).concat (by omega) (Nat.mod_lt n (by decide : 0 < 10))
      rwa [Nat.div_add_mod' n 10] at hconcat

theorem toList_toString (n : Nat) : (toString n).toList = Nat.toDigits 10 n := by
  rw [Nat.toString_eq_repr, Nat.repr_eq_ofList_toDigits, String.toList_ofList]

theorem toList_toString_ofNat (n : Nat) :
    (toString (Int.ofNat n)).toList = Nat.toDigits 10 n :=
  toList_toString n

theorem toList_toString_negSucc (n : Nat) :
    (toString (Int.negSucc n)).toList = '-' :: Nat.toDigits 10 (n + 1) := by
  rw [show toString (Int.negSucc n) = "-" ++ toString (n + 1) from rfl, String.toList_append,
    toList_toString]
  rfl

end PhaseWire.Text
