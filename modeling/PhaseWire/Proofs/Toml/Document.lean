import PhaseWire.Proofs.Toml.Text

/-
# Documents of TOML are read as they are written

A document that is written is a list of sections, and reading it gives a
table for each (`parse?_render`).  The writer puts names down without
quotes and checks neither that they are fit for it nor that they are
distinct; `IsPlain` asks for both, and for integers of 64 bits.

`Leads` says that reading goes from one place of a document to another
while its draft changes.  It hides how many lines the reader still has
room for: a line is at least one character, so the room is never used up
before the characters are (`Leads.of_line`).
-/

namespace PhaseWire.Toml

open Text

/-! ## What can be written -/

/-- Whether a name may stand as a key without quotes. -/
def IsBare (name : String) : Prop :=
  name.toList ≠ [] ∧ name.toList.all isKeyChar

instance (name : String) : Decidable (IsBare name) :=
  inferInstanceAs (Decidable (_ ∧ _))

/-- Whether a value is within what can be read: integers have 64 bits with a sign. -/
def Scalar.IsReadable : Scalar → Prop
  | text _ => True
  | integer value => -(maxInteger + 1 : Int) ≤ value ∧ value ≤ maxInteger
  | boolean _ => True

/-- Whether a section is read as it is written. -/
structure Section.IsPlain (block : Section) : Prop where
  bare_name : IsBare block.name
  bare_key : ∀ entry ∈ block.entries, IsBare entry.1
  readable : ∀ entry ∈ block.entries, entry.2.IsReadable
  nodup : (block.entries.map Prod.fst).Nodup

theorem Scalar.isReadable_natCast {value : Nat} (h : value ≤ maxInteger) :
    (Scalar.integer value).IsReadable :=
  ⟨by omega, Int.ofNat_le.mpr h⟩

theorem Scalar.isReadable_int32 (value : Int32) : (Scalar.integer value.toInt).IsReadable := by
  have hmax : (2 : Int) ^ 31 ≤ maxInteger := by decide
  have hlow := value.le_toInt
  have hhigh := value.toInt_lt
  exact ⟨by omega, by omega⟩

theorem Section.isPlain_zip {name : String} {keys : List String} {values : List Scalar}
    (hname : IsBare name) (hbare : ∀ key ∈ keys, IsBare key) (hnodup : keys.Nodup)
    (hlength : keys.length ≤ values.length) (hvalues : ∀ value ∈ values, value.IsReadable) :
    (Section.mk name (keys.zip values)).IsPlain where
  bare_name := hname
  bare_key _ hentry := hbare _ (List.of_mem_zip hentry).1
  readable _ hentry := hvalues _ (List.of_mem_zip hentry).2
  nodup := by rwa [List.map_fst_zip hlength]

/-- What a simple value is read as. -/
def Scalar.value : Scalar → Value
  | text value => .text value
  | integer value => .integer value
  | boolean value => .boolean value

def Section.values (block : Section) : Entries :=
  block.entries.map fun entry => (entry.1, entry.2.value)

def Section.table (block : Section) : String × Value :=
  (block.name, .table .header block.values)

/-! ## Entries -/

theorem Entries.get?_eq_none {entries : Entries} {key : String} (h : key ∉ entries.map Prod.fst) :
    entries.get? key = none := by
  rw [Entries.get?, List.lookup_eq_none_iff]
  intro entry hentry
  have hne : key ≠ entry.1 := fun heq => h (List.mem_map.mpr ⟨entry, hentry, heq.symm⟩)
  simpa using hne

theorem Entries.put_of_new {entries : Entries} {key : String} (h : entries.get? key = none)
    (value : Value) : entries.put key value = entries ++ [(key, value)] := by
  rw [Entries.put, if_neg (by simp [h])]

theorem addKey_of_new {entries : Entries} {key : String} (h : entries.get? key = none)
    (value : Value) : addKey [] key value entries = some (entries ++ [(key, value)]) := by
  simp [addKey, alter, h, Entries.put_of_new h]

/-! ## Keys -/

theorem dropBlanks_of_ne {c : Char} (hc : isBlank c = false) (rest : List Char) :
    dropBlanks (c :: rest) = c :: rest :=
  List.dropWhile_cons_of_neg (by simp [hc])

theorem IsBare.all_keyChar {name : String} (h : IsBare name) :
    ∀ c ∈ name.toList, isKeyChar c :=
  List.all_eq_true.mp h.2

theorem IsBare.exists_cons {name : String} (h : IsBare name) :
    ∃ first others, name.toList = first :: others ∧ isKeyChar first := by
  obtain ⟨first, others, hname⟩ := List.exists_cons_of_ne_nil h.1
  exact ⟨first, others, hname, h.all_keyChar first (hname ▸ List.mem_cons_self ..)⟩

theorem IsBare.ne_cons {name : String} (h : IsBare name) {c : Char} (hc : isKeyChar c = false)
    (rest others : List Char) : name.toList ++ rest ≠ c :: others := by
  obtain ⟨first, more, hname, hfirst⟩ := h.exists_cons
  rw [hname, List.cons_append]
  intro heq
  rw [(List.cons.inj heq).1, hc] at hfirst
  exact Bool.false_ne_true hfirst

theorem IsBare.dropBlanks_append {name : String} (h : IsBare name) (rest : List Char) :
    dropBlanks (name.toList ++ rest) = name.toList ++ rest := by
  have hblank : ∀ c, isBlank c → isKeyChar c = false := by
    intro c hc
    rcases (by simpa [isBlank] using hc : c = ' ' ∨ c = '\t') with rfl | rfl <;> decide
  cases hinput : name.toList ++ rest with
  | nil => rfl
  | cons first others =>
      refine dropBlanks_of_ne (Bool.eq_false_iff.mpr fun hfirst => ?_) others
      exact h.ne_cons (hblank first hfirst) rest others hinput

theorem IsBare.takeLineEnd_append {name : String} (h : IsBare name) (rest : List Char) :
    takeLineEnd (name.toList ++ rest) = none := by
  obtain ⟨first, others, hname, hfirst⟩ := h.exists_cons
  have hne : ∀ c, isKeyChar c = false → first ≠ c := by
    rintro c hc rfl
    exact Bool.false_ne_true (hc.symm.trans hfirst)
  rw [takeLineEnd, h.dropBlanks_append, hname, List.cons_append]
  simp [dropComment, takeNewline, hne '#' rfl, hne '\n' rfl, hne '\r' rfl]

theorem takeKeyPart_of_bare {name : String} (h : IsBare name) {mark : Char}
    (hmark : isKeyChar mark = false) (rest : List Char) :
    takeKeyPart (name.toList ++ mark :: rest) = some (name, mark :: rest) := by
  have htaken : (name.toList ++ mark :: rest).takeWhile isKeyChar = name.toList := by
    rw [List.takeWhile_append_of_pos h.all_keyChar]
    simp [hmark]
  rw [takeKeyPart.eq_def]
  split
  · exact absurd ‹_› (h.ne_cons (by decide) _ _)
  · exact absurd ‹_› (h.ne_cons (by decide) _ _)
  · simp [htaken, h.1]

theorem takeKey_of_bare {name : String} (h : IsBare name) {mark : Char}
    (hmark : isKeyChar mark = false) {rest left : List Char}
    (hleft : dropBlanks (mark :: rest) = left) (hpoint : ∀ others, left ≠ '.' :: others) :
    takeKey maxDepth (name.toList ++ mark :: rest) = some ([name], left) := by
  obtain ⟨room, hroom⟩ : ∃ room, maxDepth = room + 1 := ⟨78, rfl⟩
  rw [hroom]
  simp only [takeKey, h.dropBlanks_append, takeKeyPart_of_bare h hmark, Option.bind_eq_bind,
    Option.bind_some, hleft]
  rfl

/-! ## Values -/

theorem Scalar.exists_cons (scalar : Scalar) :
    ∃ first others, scalar.render.toList = first :: others ∧ first ∉ [' ', '\t', '[', '\x7b'] := by
  have hdigit : ∀ first ∈ [' ', '\t', '[', '\x7b'], digit? 10 first = none := by
    simp only [List.forall_mem_cons]
    exact ⟨rfl, rfl, rfl, rfl, by simp⟩
  cases scalar with
  | boolean value =>
      cases value with
      | true => exact ⟨'t', ['r', 'u', 'e'], rfl, by decide⟩
      | false => exact ⟨'f', ['a', 'l', 's', 'e'], rfl, by decide⟩
  | integer value =>
      cases value with
      | ofNat n =>
          obtain ⟨first, others, hdigits, hfirst⟩ := (isNumeral_toDigits n).exists_cons
          refine ⟨first, others, (toList_toString_ofNat n).trans hdigits, fun hmem => ?_⟩
          rw [hdigit first hmem] at hfirst
          cases hfirst
      | negSucc n => exact ⟨'-', _, toList_toString_negSucc n, by decide⟩
  | text value =>
      obtain ⟨first, others, hrender, hfirst⟩ := exists_cons_renderText value
      refine ⟨first, others, hrender, ?_⟩
      rcases hfirst with rfl | rfl <;> decide

theorem takeScalar_render {scalar : Scalar} (h : scalar.IsReadable) (rest : List Char) :
    takeScalar (scalar.render.toList ++ '\n' :: rest) = some (scalar.value, '\n' :: rest) := by
  cases scalar with
  | boolean value =>
      cases value with
      | true => rfl
      | false => rfl
  | integer value => exact takeScalar_toString h.1 h.2 rest
  | text value =>
      obtain ⟨first, others, hrender, hfirst⟩ := exists_cons_renderText value
      have htaken := takeText_renderText value rest
      rw [hrender, List.cons_append] at htaken
      rw [Scalar.render, hrender, List.cons_append]
      simp [takeScalar, hfirst, htaken, Scalar.value]

/-- A simple value is no array and no table. -/
theorem takeValue_render {scalar : Scalar} (h : scalar.IsReadable) (rest : List Char) :
    takeValue maxDepth (dropBlanks (' ' :: (scalar.render.toList ++ '\n' :: rest)))
      = some (scalar.value, '\n' :: rest) := by
  have htaken := takeScalar_render h rest
  obtain ⟨first, others, hrender, hfirst⟩ := scalar.exists_cons
  rw [hrender, List.cons_append] at htaken ⊢
  simp only [List.mem_cons, List.not_mem_nil, not_or, or_false] at hfirst
  obtain ⟨hspace, htab, hbracket, hbrace⟩ := hfirst
  have hblanks : dropBlanks (' ' :: first :: (others ++ '\n' :: rest))
      = first :: (others ++ '\n' :: rest) := by
    simp [dropBlanks, isBlank, hspace, htab]
  rw [hblanks, maxDepth, takeValue, htaken]
  · simpa using hbracket
  · simpa using hbrace

/-! ## Lines -/

theorem renderEntry_append (entry : String × Scalar) (rest : List Char) :
    (renderEntry entry).toList ++ rest
      = entry.1.toList ++ ' ' :: '=' :: ' ' :: (entry.2.render.toList ++ '\n' :: rest) := by
  simp [renderEntry]

theorem takeAssignment_renderEntry {draft : Draft} {entry : String × Scalar} (hkey : IsBare entry.1)
    (hvalue : entry.2.IsReadable) (hnew : draft.current.get? entry.1 = none) (rest : List Char) :
    draft.takeAssignment ((renderEntry entry).toList ++ rest)
      = some ({ draft with current := draft.current ++ [(entry.1, entry.2.value)] }, rest) := by
  have hblank : dropBlanks (' ' :: '=' :: ' ' :: (entry.2.render.toList ++ '\n' :: rest))
      = '=' :: ' ' :: (entry.2.render.toList ++ '\n' :: rest) := rfl
  have hparts := takeKey_of_bare hkey rfl hblank fun _ heq =>
    absurd (List.cons.inj heq).1 (by decide)
  have hexact : takeExact '=' ('=' :: ' ' :: (entry.2.render.toList ++ '\n' :: rest))
      = some (' ' :: (entry.2.render.toList ++ '\n' :: rest)) := rfl
  have hend : takeLineEnd ('\n' :: rest) = some rest := rfl
  simp [renderEntry_append, Draft.takeAssignment, hparts, hexact, hend, splitKey,
    takeValue_render hvalue, addKey_of_new hnew]

/-- A header opens a new table and finishes the one before. -/
theorem takeHeader_of_new {draft : Draft} {done : Entries} (hdone : draft.finish = some done)
    {name : String} (hname : IsBare name) (hnew : done.get? name = none) (rest : List Char) :
    draft.takeHeader ('[' :: (name.toList ++ ']' :: '\n' :: rest))
      = some (⟨done, [], [name], false⟩, rest) := by
  have hblank : dropBlanks (']' :: '\n' :: rest) = ']' :: '\n' :: rest := rfl
  have hparts := takeKey_of_bare hname rfl hblank fun _ heq =>
    absurd (List.cons.inj heq).1 (by decide)
  have hexact : takeExact ']' (']' :: '\n' :: rest) = some ('\n' :: rest) := rfl
  have hend : takeLineEnd ('\n' :: rest) = some rest := rfl
  rw [Draft.takeHeader.eq_def]
  split
  · exact absurd (List.cons.inj ‹_›).2 (hname.ne_cons (by decide) _ _)
  · rename_i hheader
    obtain ⟨-, rfl⟩ := List.cons.inj hheader
    simp [hparts, hexact, hend, Draft.openTable, hdone, splitKey, Draft.entryAt?, hnew]
  · rename_i hheader
    exact absurd rfl (hheader _)

/-! ## From place to place -/

/-- Whether reading goes on from one place and draft at another place with another draft, and has
room for all characters that are left. -/
def Leads (draft : Draft) (input : List Char) (next : Draft) (rest : List Char) : Prop :=
  ∀ fuel, input.length < fuel → ∃ left, rest.length < left
    ∧ draft.takeLines fuel input = next.takeLines left rest

theorem Leads.refl (draft : Draft) (input : List Char) : Leads draft input draft input :=
  fun fuel hfuel => ⟨fuel, hfuel, rfl⟩

theorem Leads.trans {first second third : Draft} {input middle rest : List Char}
    (h : Leads first input second middle) (h' : Leads second middle third rest) :
    Leads first input third rest := by
  intro fuel hfuel
  obtain ⟨left, hleft, hfirst⟩ := h fuel hfuel
  obtain ⟨last, hlast, hsecond⟩ := h' left hleft
  exact ⟨last, hlast, hfirst.trans hsecond⟩

/-- A line uses up a piece of the room and at least one character. -/
theorem Leads.of_line {draft next : Draft} {input rest : List Char}
    (hline : ∀ fuel, draft.takeLines (fuel + 1) input = next.takeLines fuel rest)
    (hlength : rest.length < input.length) : Leads draft input next rest := by
  intro fuel hfuel
  obtain ⟨fuel, rfl⟩ := Nat.exists_eq_add_of_le' (Nat.lt_of_le_of_lt (Nat.zero_le _) hfuel)
  exact ⟨fuel, by omega, hline fuel⟩

theorem leads_blank (draft : Draft) (rest : List Char) : Leads draft ('\n' :: rest) draft rest :=
  .of_line (fun _ => rfl) (Nat.lt_succ_self _)

theorem leads_header {draft : Draft} {done : Entries} (hdone : draft.finish = some done)
    {name : String} (hname : IsBare name) (hnew : done.get? name = none) (rest : List Char) :
    Leads draft ('[' :: (name.toList ++ ']' :: '\n' :: rest)) ⟨done, [], [name], false⟩ rest := by
  refine .of_line (fun fuel => ?_) (by simp; omega)
  rw [Draft.takeLines, dropBlanks_of_ne rfl]
  simp only [takeHeader_of_new hdone hname hnew]

theorem leads_entry {draft : Draft} {entry : String × Scalar} (hkey : IsBare entry.1)
    (hvalue : entry.2.IsReadable) (hnew : draft.current.get? entry.1 = none) (rest : List Char) :
    Leads draft ((renderEntry entry).toList ++ rest)
      { draft with current := draft.current ++ [(entry.1, entry.2.value)] } rest := by
  have htaken := takeAssignment_renderEntry hkey hvalue hnew rest
  refine .of_line (fun fuel => ?_) (by simp [renderEntry]; omega)
  rw [renderEntry_append] at htaken ⊢
  rw [Draft.takeLines.eq_def]
  simp only [hkey.dropBlanks_append]
  split
  · exact absurd ‹_› (by simp [hkey.1])
  · exact absurd ‹_› (hkey.ne_cons (by decide) _ _)
  · simp only [hkey.takeLineEnd_append, htaken]

theorem leads_entries (rest : List Char) : ∀ (entries : List (String × Scalar)) (draft : Draft),
    (∀ entry ∈ entries, IsBare entry.1) → (∀ entry ∈ entries, entry.2.IsReadable) →
    (draft.current.map Prod.fst ++ entries.map Prod.fst).Nodup →
      Leads draft ((String.join (entries.map renderEntry)).toList ++ rest)
        { draft with
          current := draft.current ++ entries.map fun entry => (entry.1, entry.2.value) }
        rest := by
  intro entries
  induction entries with
  | nil =>
      intro draft _ _ _
      simpa using Leads.refl draft rest
  | cons entry entries ih =>
      intro draft hbare hreadable hnodup
      have hnew : draft.current.get? entry.1 = none := Entries.get?_eq_none fun hmem =>
        (List.nodup_append.mp hnodup).2.2 _ hmem _ (List.mem_cons_self ..) rfl
      have hfirst := leads_entry (hbare entry (List.mem_cons_self ..))
        (hreadable entry (List.mem_cons_self ..)) hnew
        ((String.join (entries.map renderEntry)).toList ++ rest)
      have hothers := ih { draft with current := draft.current ++ [(entry.1, entry.2.value)] }
        (fun other hmem => hbare other (List.mem_cons_of_mem _ hmem))
        (fun other hmem => hreadable other (List.mem_cons_of_mem _ hmem))
        (by simpa using hnodup)
      rw [List.map_cons, String.join_cons, String.toList_append, List.append_assoc]
      simpa using hfirst.trans hothers

theorem leads_section {draft : Draft} {done : Entries} (hdone : draft.finish = some done)
    {block : Section} (h : block.IsPlain) (hnew : block.name ∉ done.map Prod.fst)
    (rest : List Char) :
    Leads draft (block.render.toList ++ rest) ⟨done, block.values, [block.name], false⟩ rest := by
  have hheader := leads_header hdone h.bare_name (Entries.get?_eq_none hnew)
    ((String.join (block.entries.map renderEntry)).toList ++ rest)
  have hentries := leads_entries rest block.entries ⟨done, [], [block.name], false⟩ h.bare_key
    h.readable (by simpa using h.nodup)
  have hrender : block.render.toList ++ rest
      = '[' :: (block.name.toList ++ ']' :: '\n'
        :: ((String.join (block.entries.map renderEntry)).toList ++ rest)) := by
    simp [Section.render]
  rw [hrender]
  exact hheader.trans hentries

theorem finish_of_new {done : Entries} {name : String} (hnew : name ∉ done.map Prod.fst)
    (values : Entries) :
    (Draft.mk done values [name] false).finish
      = some (done ++ [(name, .table .header values)]) := by
  have hnone := Entries.get?_eq_none hnew
  simp [Draft.finish, splitKey, alter, Draft.attach, hnone, Entries.put_of_new hnone]

/-- The sections of a document become tables, behind those that are finished. -/
theorem leads_render : ∀ (sections : List Section) (draft : Draft) (done : Entries),
    draft.finish = some done → (∀ block ∈ sections, block.IsPlain) →
    (done.map Prod.fst ++ sections.map Section.name).Nodup →
      ∃ last : Draft, Leads draft (render sections).toList last []
        ∧ last.finish = some (done ++ sections.map Section.table) := by
  intro sections
  induction sections with
  | nil =>
      intro draft done hdone _ _
      exact ⟨draft, Leads.refl draft [], by simpa using hdone⟩
  | cons block sections ih =>
      intro draft done hdone hplain hnodup
      have hnew : block.name ∉ done.map Prod.fst := fun hmem =>
        (List.nodup_append.mp hnodup).2.2 _ hmem _ (List.mem_cons_self ..) rfl
      have hfinish := finish_of_new hnew block.values
      have hsection := leads_section hdone (hplain block (List.mem_cons_self ..)) hnew
      -- an empty line stands between two sections, and none behind the last
      cases sections with
      | nil =>
          refine ⟨_, ?_, hfinish⟩
          simpa [render] using hsection []
      | cons other sections =>
          obtain ⟨last, hlast, hdone'⟩ := ih _ _ hfinish
            (fun block hmem => hplain block (List.mem_cons_of_mem _ hmem)) (by simpa using hnodup)
          refine ⟨last, ?_, by simpa [Section.table] using hdone'⟩
          have hrender : (render (block :: other :: sections)).toList
              = block.render.toList ++ '\n' :: (render (other :: sections)).toList := by
            simp [render, String.intercalate_cons_cons]
          rw [hrender]
          exact (hsection _).trans ((leads_blank _ _).trans hlast)

theorem render_ne_mark (sections : List Section) (rest : List Char) :
    (render sections).toList ≠ '\ufeff' :: rest := by
  match sections with
  | [] => simp [render]
  | [block] => simp [render, Section.render]
  | block :: other :: sections =>
      simp [render, Section.render, String.intercalate_cons_cons]

/-- What is written is read: every section is a table under its name, with its values under their
keys. -/
theorem parse?_render {sections : List Section} (hplain : ∀ block ∈ sections, block.IsPlain)
    (hnodup : (sections.map Section.name).Nodup) :
    parse? (render sections) = some (sections.map Section.table) := by
  obtain ⟨last, hlast, hdone⟩ := leads_render sections .empty [] rfl hplain hnodup
  obtain ⟨left, hleft, hlines⟩ := hlast ((render sections).toList.length + 1) (Nat.lt_succ_self _)
  obtain ⟨left, rfl⟩ := Nat.exists_eq_add_of_le' hleft
  have hread : Draft.takeLines ((render sections).toList.length + 1) .empty (render sections).toList
      = some (sections.map Section.table) := hlines.trans hdone
  rw [parse?]
  split
  · rename_i rest hmark
    exact absurd hmark (render_ne_mark sections rest)
  · exact hread

end PhaseWire.Toml
