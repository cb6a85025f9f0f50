import PhaseWire.Proofs.Text.Number
import PhaseWire.Toml.Document
import PhaseWire.Toml.Writer

/-
# Integers of TOML are read as they are written

An integer is written as its numeral, behind a minus if it is negative, and
the line ends behind it.  Three readers look at it in turn.  Digits up to
the end of a line are neither a date nor a time of day, because these have
a character between their fields that is none (`takeDate_of_digits`); they
are no number with a fraction, because nothing follows them
(`takeFloat_of_body`); so they reach the reader of integers, which takes
all of them (`takeInteger_of_body`).
-/

namespace PhaseWire

namespace Text

theorem ne_of_digit {c other : Char} (hc : (digit? 10 c).isSome) (hother : digit? 10 other = none) :
    c ≠ other := by
  rintro rfl
  rw [hother] at hc
  cases hc

theorem digit_of_addDigits : ∀ {digits : List Char} {base value n : Nat},
    addDigits base value digits = some n → ∀ c ∈ digits, (digit? base c).isSome := by
  intro digits
  induction digits with
  | nil => intro base value n _ c hc; cases hc
  | cons first rest ih =>
      intro base value n h c hc
      rw [addDigits, List.foldlM_cons] at h
      obtain ⟨next, hfirst, hrest⟩ := Option.bind_eq_some_iff.mp h
      obtain ⟨digit, hdigit, -⟩ := Option.map_eq_some_iff.mp hfirst
      rcases List.mem_cons.mp hc with rfl | hc
      · rw [hdigit]
        rfl
      · exact ih hrest c hc

theorem digit_of_ofDigits? {digits : List Char} {base n : Nat}
    (h : ofDigits? base digits = some n) : ∀ c ∈ digits, (digit? base c).isSome := by
  rw [ofDigits?] at h
  split at h
  · cases h
  · exact digit_of_addDigits h

end Text

namespace Toml

open Text

/-! ## Digits up to the end of a line -/

theorem go_of_digit {c : Char} (hc : (digit? 10 c).isSome) (fuel : Nat) (done rest : List Char) :
    takeDigits.go 10 (fuel + 1) done (c :: rest) = takeDigits.go 10 fuel (c :: done) rest := by
  have hmark : c ≠ '_' := ne_of_digit hc rfl
  rw [takeDigits.go, if_pos hc]
  · intro _ _ hc
    exact absurd hc hmark
  · intro hc
    exact absurd hc hmark

theorem go_of_digits (rest : List Char) : ∀ (digits : List Char) (fuel : Nat) (done : List Char),
    (∀ c ∈ digits, (digit? 10 c).isSome) → digits.length ≤ fuel →
      takeDigits.go 10 fuel done (digits ++ '\n' :: rest)
        = some (done.reverse ++ digits, '\n' :: rest) := by
  intro digits
  induction digits with
  | nil =>
      intro fuel done _ _
      cases fuel with
      | zero => simp [takeDigits.go]
      | succ fuel =>
        have hend : digit? 10 '\n' = none := rfl
        simp [takeDigits.go, hend]
  | cons first digits ih =>
      intro fuel done hdigits hfuel
      obtain ⟨fuel, rfl⟩ := Nat.exists_eq_add_of_le' (Nat.lt_of_lt_of_le (Nat.succ_pos _) hfuel)
      rw [List.cons_append, go_of_digit (hdigits first (List.mem_cons_self ..)),
        ih fuel _ (fun c hc => hdigits c (List.mem_cons_of_mem _ hc)) (by simpa using hfuel)]
      simp

theorem takeDigits_of_digits {digits : List Char} (hdigits : ∀ c ∈ digits, (digit? 10 c).isSome)
    (hne : digits ≠ []) (rest : List Char) :
    takeDigits 10 (digits ++ '\n' :: rest) = some (digits, '\n' :: rest) := by
  obtain ⟨first, others, rfl⟩ := List.exists_cons_of_ne_nil hne
  rw [List.cons_append, takeDigits, if_pos (hdigits first (List.mem_cons_self ..)),
    go_of_digits rest others _ _ (fun c hc => hdigits c (List.mem_cons_of_mem _ hc)) (by simp)]
  rfl

/-- A character that is no digit does not stand behind digits at the end of a line. -/
theorem takeExact_of_digits {digits : List Char} (hdigits : ∀ c ∈ digits, (digit? 10 c).isSome)
    {mark : Char} (hmark : digit? 10 mark = none) (hend : mark ≠ '\n') (rest : List Char) :
    takeExact mark (digits ++ '\n' :: rest) = none := by
  cases digits with
  | nil => rw [List.nil_append, takeExact, if_neg hend.symm]
  | cons first others =>
      rw [List.cons_append, takeExact, if_neg]
      exact ne_of_digit (hdigits first (List.mem_cons_self ..)) hmark

theorem takeFixed_of_digits {digits : List Char} (hdigits : ∀ c ∈ digits, (digit? 10 c).isSome)
    {width low high value : Nat} {rest left : List Char}
    (h : takeFixed width low high (digits ++ '\n' :: rest) = some (value, left)) :
    ∃ fewer, (∀ c ∈ fewer, (digit? 10 c).isSome) ∧ left = fewer ++ '\n' :: rest := by
  rw [takeFixed] at h
  split at h
  · cases h
  · obtain ⟨found, hfound, hleft⟩ := Option.bind_eq_some_iff.mp h
    split at hleft
    · cases hleft
      have htaken := digit_of_ofDigits? hfound
      refine ⟨digits.drop width, fun c hc => hdigits c (List.mem_of_mem_drop hc), ?_⟩
      refine List.drop_append_of_le_length (Nat.le_of_not_lt fun hlong => ?_)
      -- else the end of the line were one of the digits taken
      have hend : '\n' ∈ (digits ++ '\n' :: rest).take width := by
        rw [List.take_append, List.mem_append]
        refine .inr ?_
        obtain ⟨more, hmore⟩ := Nat.exists_eq_add_of_lt hlong
        rw [hmore, show digits.length + more + 1 - digits.length = more + 1 by omega,
          List.take_succ_cons]
        exact List.mem_cons_self ..
      cases htaken '\n' hend
    · cases hleft

theorem takeFixed_of_mark {mark : Char} (hmark : digit? 10 mark = none) (width low high : Nat)
    (rest : List Char) : takeFixed (width + 1) low high (mark :: rest) = none := by
  cases hfixed : takeFixed (width + 1) low high (mark :: rest) with
  | none => rfl
  | some found =>
      rw [takeFixed] at hfixed
      split at hfixed
      · cases hfixed
      · obtain ⟨value, hvalue, -⟩ := Option.bind_eq_some_iff.mp hfixed
        have hdigit := digit_of_ofDigits? hvalue mark (List.mem_cons_self ..)
        rw [hmark] at hdigit
        cases hdigit

/-! ## Neither dates nor fractions -/

/-- Neither a day nor a time of day starts where every number of fixed width is followed by neither
of their marks. -/
theorem takeDate_eq_none {input : List Char}
    (h : ∀ width low high value left, takeFixed (width + 1) low high input = some (value, left) →
      takeExact '-' left = none ∧ takeExact ':' left = none) : takeDate input = none := by
  have hday : takeDay input = none := by
    rw [takeDay]
    cases hyear : takeFixed 4 0 9999 input with
    | none => rfl
    | some found => simp [(h _ _ _ _ _ hyear).1]
  have htime : takeTime input = none := by
    rw [takeTime]
    cases hhour : takeFixed 2 0 23 input with
    | none => rfl
    | some found => simp [(h _ _ _ _ _ hhour).2]
  rw [takeDate, hday, htime]
  rfl

theorem takeDate_of_digits {digits : List Char} (hdigits : ∀ c ∈ digits, (digit? 10 c).isSome)
    (rest : List Char) : takeDate (digits ++ '\n' :: rest) = none := by
  refine takeDate_eq_none fun width low high value left hfixed => ?_
  obtain ⟨fewer, hfewer, rfl⟩ := takeFixed_of_digits hdigits hfixed
  exact ⟨takeExact_of_digits hfewer rfl (by decide) rest,
    takeExact_of_digits hfewer rfl (by decide) rest⟩

theorem takeDate_of_mark {mark : Char} (hmark : digit? 10 mark = none) (rest : List Char) :
    takeDate (mark :: rest) = none := by
  refine takeDate_eq_none fun width low high value left hfixed => ?_
  rw [takeFixed_of_mark hmark] at hfixed
  cases hfixed

section Numeral

variable {digits : List Char} {n : Nat} (h : IsNumeral digits n) (rest : List Char)
include h

theorem Numeral.ne_cons {mark : Char} (hmark : digit? 10 mark = none) (others : List Char) :
    digits ++ rest ≠ mark :: others := by
  obtain ⟨first, more, rfl, hfirst⟩ := h.exists_cons
  intro heq
  exact ne_of_digit hfirst hmark (List.cons.inj heq).1

theorem takeWhole_of_numeral :
    takeWhole (digits ++ '\n' :: rest) = some (digits, '\n' :: rest) := by
  rw [takeWhole.eq_def]
  split
  · rename_i tail htail
    obtain ⟨first, others, rfl, -⟩ := h.exists_cons
    obtain ⟨rfl, rfl⟩ := List.cons.inj htail
    rw [h.zero_alone others rfl]
    rfl
  · exact takeDigits_of_digits h.isDigit h.ne_nil rest

theorem takeSign_of_numeral :
    takeSign (digits ++ rest) = (false, digits ++ rest) := by
  rw [takeSign.eq_def]
  split
  · exact absurd ‹_› (Numeral.ne_cons h rest rfl _)
  · exact absurd ‹_› (Numeral.ne_cons h rest rfl _)
  · rfl

/-- Digits with nothing behind them are no number with a fraction. -/
theorem takeFloat_of_body {input : List Char} {negative : Bool}
    (hsign : takeSign input = (negative, digits ++ '\n' :: rest)) : takeFloat input = none := by
  have hfraction : takeFraction ('\n' :: rest) = some ([], '\n' :: rest) := rfl
  have hexponent : takeExponent ('\n' :: rest) = some (none, '\n' :: rest) := rfl
  simp only [takeFloat, hsign]
  split
  · exact absurd ‹_› (Numeral.ne_cons h _ rfl _)
  · exact absurd ‹_› (Numeral.ne_cons h _ rfl _)
  · simp [takeWhole_of_numeral h rest, hfraction, hexponent]

/-- The number is read in base ten, unless a base stands in front. -/
theorem takeInteger_of_body {input : List Char} {negative : Bool}
    (hsign : takeSign input = (negative, digits ++ '\n' :: rest))
    (hbase : ∀ mark ∈ ['x', 'o', 'b'], ∀ others, input ≠ '0' :: mark :: others) :
    takeInteger input
      = if negative then
          if n ≤ maxInteger + 1 then some (-(n : Int), '\n' :: rest) else none
        else if n ≤ maxInteger then some ((n : Int), '\n' :: rest) else none := by
  rw [takeInteger.eq_def]
  dsimp only
  split
  · exact absurd rfl (hbase 'x' (by simp) _)
  · exact absurd rfl (hbase 'o' (by simp) _)
  · exact absurd rfl (hbase 'b' (by simp) _)
  · simp [hsign, takeWhole_of_numeral h rest, h.ofDigits?]

theorem Numeral.ne_base {mark : Char} (hmark : mark ≠ '\n') (others : List Char) :
    digits ++ '\n' :: rest ≠ '0' :: mark :: others := by
  obtain ⟨first, more, rfl, -⟩ := h.exists_cons
  intro heq
  obtain ⟨rfl, htail⟩ := List.cons.inj heq
  rw [h.zero_alone more rfl] at htail
  exact hmark (List.cons.inj htail).1.symm

end Numeral

/-! ## Integers -/

/-- What starts like no text and no truth value, is no date and has no fraction is read as an
integer. -/
theorem takeScalar_of_integer {first : Char} {others : List Char} {found : Int × List Char}
    (hfirst : first ∉ ['"', '\'', 't', 'f']) (hdate : takeDate (first :: others) = none)
    (hfloat : takeFloat (first :: others) = none)
    (hinteger : takeInteger (first :: others) = some found) :
    takeScalar (first :: others) = some (.integer found.1, found.2) := by
  simp only [List.mem_cons, List.not_mem_nil, not_or, or_false] at hfirst
  simp [takeScalar, hfirst, hdate, hfloat, hinteger]

theorem takeScalar_toString {value : Int} (hlow : -(maxInteger + 1 : Int) ≤ value)
    (hhigh : value ≤ maxInteger) (rest : List Char) :
    takeScalar ((toString value).toList ++ '\n' :: rest)
      = some (.integer value, '\n' :: rest) := by
  cases value with
  | ofNat n =>
      have h := isNumeral_toDigits n
      have hsign := takeSign_of_numeral h ('\n' :: rest)
      have hinteger := takeInteger_of_body h rest hsign fun mark hmark others =>
        Numeral.ne_base h rest (by rintro rfl; revert hmark; decide) others
      have hmax : n ≤ maxInteger := Int.ofNat_le.mp hhigh
      rw [if_neg (by decide), if_pos hmax] at hinteger
      have hdate := takeDate_of_digits h.isDigit rest
      have hfloat := takeFloat_of_body h rest hsign
      obtain ⟨first, others, hdigits, hfirst⟩ := h.exists_cons
      rw [toList_toString_ofNat]
      rw [hdigits, List.cons_append] at hdate hfloat hinteger ⊢
      refine takeScalar_of_integer (fun hmem => ?_) hdate hfloat hinteger
      have hmark : ∀ c ∈ ['"', '\'', 't', 'f'], digit? 10 c = none := by
        simp only [List.forall_mem_cons]
        exact ⟨rfl, rfl, rfl, rfl, by simp⟩
      rw [hmark first hmem] at hfirst
      cases hfirst
  | negSucc n =>
      have h := isNumeral_toDigits (n + 1)
      have hsign : takeSign ('-' :: (Nat.toDigits 10 (n + 1) ++ '\n' :: rest))
          = (true, Nat.toDigits 10 (n + 1) ++ '\n' :: rest) := rfl
      have hinteger := takeInteger_of_body h rest hsign fun mark _ others heq =>
        absurd (List.cons.inj heq).1 (by decide)
      have hmax : n + 1 ≤ maxInteger + 1 := by omega
      rw [if_pos rfl, if_pos hmax] at hinteger
      rw [toList_toString_negSucc, List.cons_append]
      exact takeScalar_of_integer (by decide) (takeDate_of_mark rfl _)
        (takeFloat_of_body h rest hsign) hinteger

end Toml
end PhaseWire
