import PhaseWire.Proofs.Toml.Number

/-
# Texts of TOML are read as they are written

A text is written in one of four quotings, and what stands between the
quotes is its characters, most of them as they are and some as escapes.
`Shows` says which spellings of a text a quoting admits.  The writer keeps
to it (`shows_escapeFrom`, `shows_self`), whichever quoting it takes, and
every reader takes what is shown back (`takeMultiline_of_shows`,
`takeBasic_of_shows`).

Three marks in a row end a text of several lines, and the reader takes up
to five at once, of which the first two are still text.  This is why
`Shows` counts the marks that stand before a place: a third one has a
backslash, so there are at most two before the three that end the text.
-/

namespace PhaseWire.Toml

open Text

def Quoting.mark : Quoting → Char
  | basic | basicLines => '"'
  | literal | literalLines => '\''

/-! ## Spellings -/

/-- How the characters of a text are written between quotes, behind a number of marks. -/
inductive Shows (quoting : Quoting) : (marks : Nat) → (chars written : List Char) → Prop
  | nil {marks : Nat} : Shows quoting marks [] []
  /-- One or two marks in a row do not end a text of several lines. -/
  | mark {marks : Nat} {chars written : List Char} : quoting.hasLines → marks < 2 →
      Shows quoting (marks + 1) chars written →
      Shows quoting marks (quoting.mark :: chars) (quoting.mark :: written)
  /-- A character that stands for itself. -/
  | plain {marks : Nat} {c : Char} {chars written : List Char} : c ≠ quoting.mark →
      (quoting.hasEscapes → c ≠ '\\') → (isPrintable c ∨ (c = '\n' ∧ quoting.hasLines)) →
      Shows quoting 0 chars written → Shows quoting marks (c :: chars) (c :: written)
  /-- A character behind a backslash. -/
  | escape {marks : Nat} {c : Char} {shown chars written : List Char} : quoting.hasEscapes →
      (∀ rest, takeEscape (shown ++ rest) = some (c, rest)) →
      Shows quoting 0 chars written → Shows quoting marks (c :: chars) ('\\' :: (shown ++ written))

theorem Shows.takeNewline_eq_none {quoting : Quoting} {marks : Nat} {chars written : List Char}
    (h : Shows quoting marks chars written) (hline : '\n' ∉ chars) (rest : List Char) :
    takeNewline (written ++ quoting.mark :: rest) = none := by
  have hmark : quoting.mark ≠ '\n' ∧ quoting.mark ≠ '\r' := by cases quoting <;> decide
  cases h with
  | nil => simp [takeNewline, hmark]
  | mark => simp [takeNewline, hmark]
  | escape => simp [takeNewline]
  | @plain _ c chars written _ _ hprint _ =>
      have hc : c ≠ '\n' := by
        rintro rfl
        exact hline (List.mem_cons_self ..)
      have hreturn : c ≠ '\r' := by
        rintro rfl
        rcases hprint with hprint | ⟨hend, -⟩
        · revert hprint
          decide
        · revert hend
          decide
      simp [takeNewline, hc, hreturn]

/-! ## Reading -/

section Reading

variable {quoting : Quoting} (fuel : Nat) (done : List Char)

theorem takeQuotes_replicate {quote c : Char} (hc : c ≠ quote) (rest : List Char) {count : Nat}
    (hcount : count ≤ 5) :
    takeQuotes quote (List.replicate count quote ++ c :: rest) = (count, c :: rest) := by
  have hbehind : ∀ most, ((c :: rest).take most).takeWhile (· = quote) = [] := by
    intro most
    cases most <;> simp [hc]
  have htaken : ((List.replicate count quote ++ c :: rest).take 5).takeWhile (· = quote)
      = List.replicate count quote := by
    rw [List.take_append, List.take_of_length_le (by simpa using hcount),
      List.takeWhile_append_of_pos (by simp), hbehind, List.append_nil]
  simp [takeQuotes, htaken]

theorem takeMultiline_of_marks {c : Char} (hc : c ≠ quoting.mark) {marks : Nat}
    (hmarks : marks < 3) (rest : List Char) {room : Nat} (hfuel : marks + room ≤ fuel) :
    ∃ left, room ≤ left ∧
      takeMultiline quoting.mark quoting.hasEscapes fuel done
          (List.replicate marks quoting.mark ++ c :: rest)
        = takeMultiline quoting.mark quoting.hasEscapes left
            (List.replicate marks quoting.mark ++ done) (c :: rest) := by
  cases marks with
  | zero => exact ⟨fuel, by omega, rfl⟩
  | succ more =>
      obtain ⟨fuel, rfl⟩ : ∃ less, fuel = less + 1 := ⟨fuel - 1, by omega⟩
      refine ⟨fuel, by omega, ?_⟩
      have hquotes := takeQuotes_replicate hc rest (show more + 1 ≤ 5 by omega)
      rw [List.replicate_succ, List.cons_append] at hquotes ⊢
      rw [takeMultiline, if_pos rfl, hquotes]
      simp only [if_pos hmarks]
      rw [List.replicate_succ]

theorem takeMultiline_of_end {c : Char} (hc : c ≠ quoting.mark) {marks : Nat} (hmarks : marks ≤ 2)
    (rest : List Char) :
    takeMultiline quoting.mark quoting.hasEscapes (fuel + 1) done
        (List.replicate marks quoting.mark ++ (List.replicate 3 quoting.mark ++ c :: rest))
      = some (String.ofList (done.reverse ++ List.replicate marks quoting.mark), c :: rest) := by
  have hquotes := takeQuotes_replicate hc rest (show marks + 3 ≤ 5 by omega)
  rw [← List.append_assoc, List.replicate_append_replicate]
  rw [List.replicate_succ, List.cons_append] at hquotes ⊢
  rw [takeMultiline, if_pos rfl, hquotes]
  simp only [if_neg (show ¬marks + 3 < 3 by omega), Nat.add_sub_cancel, List.reverse_append,
    List.reverse_replicate]

theorem takeMultiline_of_plain {c : Char} (hmark : c ≠ quoting.mark)
    (hescape : quoting.hasEscapes → c ≠ '\\') (hprint : isPrintable c ∨ c = '\n')
    (rest : List Char) :
    takeMultiline quoting.mark quoting.hasEscapes (fuel + 1) done (c :: rest)
      = takeMultiline quoting.mark quoting.hasEscapes fuel (c :: done) rest := by
  rw [takeMultiline, if_neg hmark, if_neg (by simpa using hescape)]
  by_cases hc : isPrintable c
  · rw [if_pos hc]
  · obtain rfl := hprint.resolve_left hc
    rw [if_neg hc]
    rfl

theorem takeMultiline_of_escape {c : Char} {shown : List Char} (hescapes : quoting.hasEscapes)
    (hshown : ∀ rest, takeEscape (shown ++ rest) = some (c, rest)) (rest : List Char) :
    takeMultiline quoting.mark quoting.hasEscapes (fuel + 1) done ('\\' :: (shown ++ rest))
      = takeMultiline quoting.mark quoting.hasEscapes fuel (c :: done) rest := by
  have hmark : '\\' ≠ quoting.mark := by cases quoting <;> decide
  rw [takeMultiline, if_neg hmark, if_pos (by simp [hescapes]), hshown]

/-- A text of several lines is read as it is shown. -/
theorem takeMultiline_of_shows {marks : Nat} {chars written : List Char}
    (h : Shows quoting marks chars written) (hmarks : marks ≤ 2)
    (hfuel : marks + written.length < fuel) (rest : List Char) :
    takeMultiline quoting.mark quoting.hasEscapes fuel done
        (List.replicate marks quoting.mark
          ++ (written ++ (List.replicate 3 quoting.mark ++ '\n' :: rest)))
      = some (String.ofList (done.reverse ++ List.replicate marks quoting.mark ++ chars),
          '\n' :: rest) := by
  have hend : '\n' ≠ quoting.mark := by cases quoting <;> decide
  -- the marks before a place are read together with what follows them: with more marks, or as text
  -- as soon as another character comes
  induction h generalizing fuel done with
  | nil =>
      obtain ⟨fuel, rfl⟩ : ∃ less, fuel = less + 1 := ⟨fuel - 1, by omega⟩
      rw [List.nil_append, takeMultiline_of_end fuel done hend hmarks, List.append_nil]
  | @mark marks chars written _ hless _ ih =>
      have htaken := ih fuel done (by omega) (by simp only [List.length_cons] at hfuel; omega)
      rw [List.replicate_succ', List.append_assoc, List.append_assoc] at htaken
      simpa using htaken
  | @plain marks c chars written hmark hescape hprint _ ih =>
      rw [List.length_cons] at hfuel
      obtain ⟨left, hleft, hflush⟩ := takeMultiline_of_marks fuel done hmark
        (Nat.lt_succ_of_le hmarks) (written ++ (List.replicate 3 quoting.mark ++ '\n' :: rest))
        (show marks + (written.length + 2) ≤ fuel by omega)
      obtain ⟨left, rfl⟩ : ∃ less, left = less + 1 := ⟨left - 1, by omega⟩
      have htaken := ih left (c :: (List.replicate marks quoting.mark ++ done)) (by omega)
        (by omega)
      rw [List.cons_append, hflush, takeMultiline_of_plain left _ hmark hescape
        (hprint.imp_right And.left)]
      simpa using htaken
  | @escape marks c shown chars written hescapes hshown _ ih =>
      have hmark : '\\' ≠ quoting.mark := by cases quoting <;> decide
      rw [List.length_cons, List.length_append] at hfuel
      obtain ⟨left, hleft, hflush⟩ := takeMultiline_of_marks fuel done hmark
        (Nat.lt_succ_of_le hmarks)
        (shown ++ (written ++ (List.replicate 3 quoting.mark ++ '\n' :: rest)))
        (show marks + (written.length + 2) ≤ fuel by omega)
      obtain ⟨left, rfl⟩ : ∃ less, left = less + 1 := ⟨left - 1, by omega⟩
      have htaken := ih left (c :: (List.replicate marks quoting.mark ++ done)) (by omega)
        (by omega)
      rw [List.cons_append, List.append_assoc, hflush,
        takeMultiline_of_escape left _ hescapes hshown]
      simpa using htaken

theorem takeBasic_of_shows {marks : Nat} {chars written : List Char}
    (h : Shows .basic marks chars written) (hfuel : written.length < fuel) (rest : List Char) :
    takeBasic fuel done (written ++ '"' :: rest)
      = some (String.ofList (done.reverse ++ chars), rest) := by
  induction h generalizing fuel done with
  | nil =>
      obtain ⟨fuel, rfl⟩ : ∃ less, fuel = less + 1 := ⟨fuel - 1, by omega⟩
      simp [takeBasic]
  | mark hlines => cases hlines
  | @plain marks c chars written hmark hescape hprint _ ih =>
      rw [List.length_cons] at hfuel
      obtain ⟨fuel, rfl⟩ : ∃ less, fuel = less + 1 := ⟨fuel - 1, by omega⟩
      have hmark : c ≠ '"' := hmark
      have hprint := hprint.resolve_right fun hend => Bool.false_ne_true hend.2
      rw [List.cons_append, takeBasic, if_neg hmark, if_neg (hescape rfl), if_pos hprint,
        ih fuel _ (by omega)]
      simp
  | @escape marks c shown chars written hescapes hshown _ ih =>
      rw [List.length_cons, List.length_append] at hfuel
      obtain ⟨fuel, rfl⟩ : ∃ less, fuel = less + 1 := ⟨fuel - 1, by omega⟩
      rw [List.cons_append, List.append_assoc, takeBasic, if_neg (by decide), if_pos rfl, hshown]
      simp only [ih fuel (c :: done) (by omega), List.reverse_cons, List.append_assoc,
        List.singleton_append]

end Reading

theorem takeLiteral_of_plain {chars : List Char}
    (h : ∀ c ∈ chars, c ≠ '\'' ∧ isPrintable c) (rest : List Char) :
    takeLiteral (chars ++ '\'' :: rest) = some (String.ofList chars, rest) := by
  have htaken : (chars ++ '\'' :: rest).takeWhile (fun c => c ≠ '\'' && isPrintable c) = chars := by
    rw [List.takeWhile_append_of_pos fun c hc => by simpa using h c hc]
    simp
  rw [takeLiteral, htaken, List.drop_left]
  rfl

/-! ## Writing -/

theorem isPrintable_of_needsEscape {c : Char} (hneeds : needsEscape c = false) (hend : c ≠ '\n') :
    isPrintable c := by
  simpa [needsEscape, hend] using hneeds

theorem takeEscape_of_code {digits : List Char} {c : Char} (hlength : digits.length = 4)
    (hcode : ofCodePoint? digits = some c) (rest : List Char) :
    takeEscape ('u' :: (digits ++ rest)) = some (c, rest) := by
  simp [takeEscape, List.take_left' hlength, List.drop_left' hlength, hcode, hlength]

theorem toNat_lt_of_needsEscape {c : Char} (hc : needsEscape c) : c.toNat < 128 := by
  by_cases hcontrol : ' ' ≤ c
  · have hdelete : c = '\x7f' := Decidable.byContradiction fun hne => by
      simp [needsEscape, isPrintable, hcontrol, hne] at hc
    rw [hdelete]
    decide
  · have : c.toNat < 32 := Nat.lt_of_not_le hcontrol
    omega

theorem ofCodePoint?_hexDigits : ∀ code < 128,
    (((hexDigits 4 code).map Char.toUpper).toList).length = 4
      ∧ ofCodePoint? ((hexDigits 4 code).map Char.toUpper).toList = some (Char.ofNat code) := by
  simp only [String.toList_map, hexDigits, String.toList_ofList]
  decide

/-- An escape is a backslash and what is read as the character. -/
theorem takeEscape_of_escape? {hasLines : Bool} {c : Char} {text : String}
    (h : escape? hasLines c = some text) :
    ∃ shown, text.toList = '\\' :: shown
      ∧ ∀ rest, takeEscape (shown ++ rest) = some (c, rest) := by
  rw [escape?] at h
  split at h
  · subst c
    split at h
    · cases h
    · cases h
      exact ⟨['n'], rfl, fun _ => rfl⟩
  split at h
  · subst c
    cases h
    exact ⟨['b'], rfl, fun _ => rfl⟩
  split at h
  · subst c
    cases h
    exact ⟨['t'], rfl, fun _ => rfl⟩
  split at h
  · subst c
    cases h
    exact ⟨['f'], rfl, fun _ => rfl⟩
  split at h
  · subst c
    cases h
    exact ⟨['r'], rfl, fun _ => rfl⟩
  split at h
  · subst c
    cases h
    exact ⟨['\\'], rfl, fun _ => rfl⟩
  split at h
  · rename_i hneeds
    obtain ⟨hlength, hcode⟩ := ofCodePoint?_hexDigits c.toNat (toNat_lt_of_needsEscape hneeds)
    rw [Char.ofNat_toNat] at hcode
    cases h
    exact ⟨_, String.toList_append, takeEscape_of_code hlength hcode⟩
  · cases h

theorem plain_of_escape? {hasLines : Bool} {c : Char} (h : escape? hasLines c = none) :
    c ≠ '\\' ∧ (isPrintable c ∨ (c = '\n' ∧ hasLines)) := by
  by_cases hend : c = '\n'
  · subst c
    cases hasLines with
    | false => cases h
    | true => exact ⟨by decide, .inr ⟨rfl, rfl⟩⟩
  · rw [escape?, if_neg hend] at h
    iterate 4 (split at h; · cases h)
    split at h
    · cases h
    · exact ⟨‹_›, .inl (isPrintable_of_needsEscape (by simpa using h) hend)⟩

theorem shows_escapeFrom {quoting : Quoting} (hescapes : quoting.hasEscapes) (chars : List Char)
    (marks : Nat) : Shows quoting marks chars (escapeFrom quoting.hasLines marks chars).toList := by
  have hquote : quoting.mark = '"' := by
    cases quoting with
    | basic | basicLines => rfl
    | literal | literalLines => cases hescapes
  induction chars generalizing marks with
  | nil => exact .nil
  | cons c chars ih =>
      rw [escapeFrom.eq_def]
      split
      · cases ‹_›
      · rename_i heq
        obtain ⟨rfl, rfl⟩ := List.cons.inj heq
        rw [← hquote]
        split
        · rename_i hopen
          rw [String.toList_append]
          exact hquote ▸ .mark hopen.1 hopen.2 (ih _)
        · rw [String.toList_append]
          have hshown : ∀ rest, takeEscape (['"'] ++ rest) = some (quoting.mark, rest) := by
            rw [hquote]
            exact fun _ => rfl
          exact .escape hescapes hshown (ih 0)
      · rename_i marks c' chars' hmark heq
        obtain ⟨rfl, rfl⟩ := List.cons.inj heq
        rw [String.toList_append]
        cases hescape : escape? quoting.hasLines c with
        | some text =>
            obtain ⟨shown, htext, hshown⟩ := takeEscape_of_escape? hescape
            rw [Option.getD_some, htext, List.cons_append]
            exact .escape hescapes hshown (ih 0)
        | none =>
            obtain ⟨hslash, hprint⟩ := plain_of_escape? hescape
            rw [Option.getD_none, String.toList_singleton]
            exact .plain (fun hc => hmark (hc.trans hquote)) (fun _ => hslash) hprint (ih 0)

/-! ### Texts without escapes -/

theorem le_longestRun (mark : Char) : ∀ (chars : List Char) (current longest : Nat),
    current ≤ longestRun mark current longest chars
      ∧ longest ≤ longestRun mark current longest chars := by
  intro chars
  induction chars with
  | nil =>
      intro current longest
      exact ⟨Nat.le_max_left .., Nat.le_max_right ..⟩
  | cons c chars ih =>
      intro current longest
      rw [longestRun]
      split
      · exact ⟨Nat.le_of_succ_le (ih _ _).1, (ih _ _).2⟩
      · have hlongest := (ih 0 (max current longest)).2
        omega

/-- A text of several lines without long runs of marks shows itself. -/
theorem shows_self {quoting : Quoting} (hlines : quoting.hasLines)
    (hescapes : quoting.hasEscapes = false) : ∀ {chars : List Char} {marks longest : Nat},
    (∀ c ∈ chars, needsEscape c = false) → longestRun quoting.mark marks longest chars ≤ 2 →
      Shows quoting marks chars chars := by
  intro chars
  induction chars with
  | nil =>
      intro marks longest _ _
      exact .nil
  | cons c chars ih =>
      intro marks longest hplain hruns
      have hothers := fun other hmem => hplain other (List.mem_cons_of_mem c hmem)
      rw [longestRun] at hruns
      split at hruns
      · subst c
        have hmarks := (le_longestRun quoting.mark chars (marks + 1) longest).1
        exact .mark hlines (by omega) (ih hothers hruns)
      · rename_i hmark
        refine .plain hmark (fun h => ?_) ?_ (ih hothers hruns)
        · rw [hescapes] at h
          cases h
        · by_cases hend : c = '\n'
          · exact .inr ⟨hend, hlines⟩
          · exact .inl (isPrintable_of_needsEscape (hplain c (List.mem_cons_self ..)) hend)

theorem not_mem_of_longestRun {mark : Char} : ∀ {chars : List Char} {current longest : Nat},
    longestRun mark current longest chars = 0 → mark ∉ chars := by
  intro chars
  induction chars with
  | nil =>
      intro _ _ _ hmem
      cases hmem
  | cons c chars ih =>
      intro current longest h
      rw [longestRun] at h
      split at h
      · have hcurrent := (le_longestRun mark chars (current + 1) longest).1
        omega
      · rename_i hmark
        exact List.not_mem_cons_of_ne_of_not_mem (Ne.symm hmark) (ih h)

/-! ## Quotings -/

/-- What is quoted as it is needs no escapes and has no long runs of marks; on one line it has
neither marks nor ends of lines. -/
theorem plain_of_quotingOf {chars : List Char} (h : (quotingOf chars).hasEscapes = false) :
    (∀ c ∈ chars, needsEscape c = false) ∧ longestRun '\'' 0 0 chars ≤ 2
      ∧ ((quotingOf chars).hasLines = false → '\'' ∉ chars ∧ '\n' ∉ chars) := by
  have hplain : (!chars.any needsEscape) = true → ∀ c ∈ chars, needsEscape c = false := by
    simp
  revert h
  simp only [quotingOf]
  split
  · intro h
    cases h
  split
  · rename_i hliteral
    obtain ⟨hneeds, hsingles, hline⟩ := hliteral
    exact fun _ => ⟨hplain hneeds, by omega, fun _ =>
      ⟨not_mem_of_longestRun hsingles, by simpa using hline⟩⟩
  split
  · intro h
    cases h
  split
  · rename_i hlines
    exact fun _ => ⟨hplain hlines.1, hlines.2, fun h => by cases h⟩
  · intro h
    split at h <;> cases h

theorem ne_marks {quote : Char} (hend : quote ≠ '\n') {written : List Char}
    (h : ∀ others, written ≠ quote :: others) (rest others : List Char) :
    written ++ quote :: '\n' :: rest ≠ quote :: quote :: others := by
  cases written with
  | nil => simp [hend.symm]
  | cons first more =>
      intro heq
      exact h more (by rw [(List.cons.inj heq).1])

theorem takeText_of_basic {chars written : List Char} (h : Shows .basic 0 chars written)
    (rest : List Char) :
    takeText ('"' :: (written ++ '"' :: '\n' :: rest))
      = some (String.ofList chars, '\n' :: rest) := by
  have hmark : ∀ others, written ≠ '"' :: others := by
    rintro others rfl
    cases h with
    | mark hlines => cases hlines
    | plain hmark => exact hmark rfl
  rw [takeText]
  · refine takeBasic_of_shows _ [] h ?_ _
    rw [List.length_cons, List.length_append]
    omega
  · intro others heq
    exact ne_marks (by decide) hmark rest others heq

theorem takeText_of_literal {chars : List Char} (h : ∀ c ∈ chars, c ≠ '\'' ∧ isPrintable c)
    (rest : List Char) :
    takeText ('\'' :: (chars ++ '\'' :: '\n' :: rest))
      = some (String.ofList chars, '\n' :: rest) := by
  have hmark : ∀ others, chars ≠ '\'' :: others := by
    rintro others rfl
    exact (h '\'' (List.mem_cons_self ..)).1 rfl
  rw [takeText]
  · exact takeLiteral_of_plain h _
  · intro others heq
    exact ne_marks (by decide) hmark rest others heq

theorem takeText_of_lines {quoting : Quoting} (hlines : quoting.hasLines)
    {chars written : List Char} (h : Shows quoting 0 chars written) (rest : List Char) :
    takeText (List.replicate 3 quoting.mark
        ++ ((if chars.contains '\n' then ['\n'] else [])
          ++ (written ++ (List.replicate 3 quoting.mark ++ '\n' :: rest))))
      = some (String.ofList chars, '\n' :: rest) := by
  have hopen : ∀ input, takeText (List.replicate 3 quoting.mark ++ input)
      = takeMultiline quoting.mark quoting.hasEscapes (input.length + 3) []
          (dropFirstNewline input) := by
    intro input
    cases quoting with
    | basic | literal => cases hlines
    | basicLines | literalLines => rfl
  have hfirst : dropFirstNewline ((if chars.contains '\n' then ['\n'] else [])
          ++ (written ++ (List.replicate 3 quoting.mark ++ '\n' :: rest)))
      = written ++ (List.replicate 3 quoting.mark ++ '\n' :: rest) := by
    by_cases hline : '\n' ∈ chars
    · simp [hline, dropFirstNewline, takeNewline]
    · have hnone := h.takeNewline_eq_none hline
      simp [hline, dropFirstNewline, List.replicate_succ, hnone]
  rw [hopen, hfirst]
  exact takeMultiline_of_shows _ [] h (by omega) (by simp; omega) rest

theorem toList_renderText (value : String) :
    (renderText value).toList
      = (quotingOf value.toList).delimiter.toList
        ++ ((if (quotingOf value.toList).hasLines ∧ value.toList.contains '\n' then ['\n'] else [])
          ++ ((if (quotingOf value.toList).hasEscapes then
                (escapeFrom (quotingOf value.toList).hasLines 0 value.toList).toList
              else value.toList)
            ++ (quotingOf value.toList).delimiter.toList)) := by
  simp only [renderText, String.toList_append, List.append_assoc]
  congr 2
  · split <;> rfl
  · split <;> rfl

theorem exists_cons_renderText (value : String) :
    ∃ first others, (renderText value).toList = first :: others ∧ (first = '"' ∨ first = '\'') := by
  rw [toList_renderText]
  cases quotingOf value.toList with
  | basic | basicLines => exact ⟨'"', _, rfl, .inl rfl⟩
  | literal | literalLines => exact ⟨'\'', _, rfl, .inr rfl⟩

/-- Every text is read as it is written. -/
theorem takeText_renderText (value : String) (rest : List Char) :
    takeText ((renderText value).toList ++ '\n' :: rest) = some (value, '\n' :: rest) := by
  rw [toList_renderText]
  cases hquoting : quotingOf value.toList with
  | basic =>
      have htaken := takeText_of_basic (shows_escapeFrom rfl value.toList 0) rest
      simpa [Quoting.delimiter, Quoting.hasLines, Quoting.hasEscapes] using htaken
  | literal =>
      have hplain : ∀ c ∈ value.toList, c ≠ '\'' ∧ isPrintable c := by
        obtain ⟨hneeds, -, hline⟩ := plain_of_quotingOf (congrArg Quoting.hasEscapes hquoting)
        obtain ⟨hmark, hend⟩ := hline (congrArg Quoting.hasLines hquoting)
        intro c hc
        have hprint := isPrintable_of_needsEscape (hneeds c hc) fun h => hend (h ▸ hc)
        exact ⟨fun h => hmark (h ▸ hc), hprint⟩
      have htaken := takeText_of_literal hplain rest
      simpa [Quoting.delimiter, Quoting.hasLines, Quoting.hasEscapes] using htaken
  | basicLines =>
      have hshown := shows_escapeFrom (show Quoting.basicLines.hasEscapes from rfl) value.toList 0
      have htaken := takeText_of_lines rfl hshown rest
      simpa [Quoting.delimiter, Quoting.mark, Quoting.hasLines, Quoting.hasEscapes] using htaken
  | literalLines =>
      obtain ⟨hneeds, hruns, -⟩ := plain_of_quotingOf (congrArg Quoting.hasEscapes hquoting)
      have hshown := shows_self (show Quoting.literalLines.hasLines from rfl) rfl hneeds hruns
      have htaken := takeText_of_lines rfl hshown rest
      simpa [Quoting.delimiter, Quoting.mark, Quoting.hasLines, Quoting.hasEscapes] using htaken

end PhaseWire.Toml
