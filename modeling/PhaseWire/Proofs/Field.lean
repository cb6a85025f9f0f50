import PhaseWire.Field.Reader
import PhaseWire.Field.Writer
import PhaseWire.Proofs.Bytes
import PhaseWire.Proofs.Frame

/-
# Fields are read as they were written

A reader undoes a writer (`Reader.Undoes`) if it gives back what was
written, whatever follows, or refuses it for a limit of the field; and if
what it reads from any bytes is written in no more bytes than were read.
Each kind of field has one lemma, which says what its limits let through,
and two fields in a row are one (`both_undoes`).  Readers are put together
with `>>=`, and the first section says what that does to a buffer.
-/

namespace PhaseWire

/-! ## How long a field is -/

namespace Field

theorem varInt_pos (value : Int32) : 0 < (varInt value).length :=
  List.length_pos_iff.2 (VarNum.encodeInt_ne_nil value)

theorem array_pos (value : Bytes) : 0 < (array value).length := by
  have hprefix := varInt_pos (Int32.ofNat value.length)
  rw [array, List.length_append]
  exact Nat.add_pos_left hprefix _

theorem text_pos (value : String) : 0 < (text value).length :=
  array_pos (Bytes.ofText value)

theorem length_word16 (value : UInt16) : (word16 value).length = 2 :=
  Bytes.length_toBigEndian 2 value.toNat

theorem length_int64 (value : Int64) : (int64 value).length = 8 :=
  Bytes.length_toBigEndian 8 value.toUInt64.toNat

end Field

namespace Reader

variable {α β : Type}

/-! ## What a reader does to a buffer -/

theorem onBuffer_bind (reader : Reader α) (next : α → Reader β) (buffer : Bytes) :
    (reader >>= next).onBuffer buffer =
      match reader.onBuffer buffer with
      | (.ok value, rest) => (next value).onBuffer rest
      | (.error fault, rest) => (.error fault, rest) := by
  show (ExceptT.bindCont next (reader.onBuffer buffer).1) (reader.onBuffer buffer).2 = _
  rcases reader.onBuffer buffer with ⟨fault | value, rest⟩
  · rfl
  · rfl

theorem onBuffer_bind_of_ok {reader : Reader α} {buffer rest : Bytes} {value : α}
    (h : reader.onBuffer buffer = (.ok value, rest)) (next : α → Reader β) :
    (reader >>= next).onBuffer buffer = (next value).onBuffer rest := by
  rw [onBuffer_bind, h]

theorem bind_eq_ok_iff {reader : Reader α} {next : α → Reader β} {buffer rest : Bytes}
    {value : β} :
    (reader >>= next).onBuffer buffer = (.ok value, rest) ↔
      ∃ first middle, reader.onBuffer buffer = (.ok first, middle)
        ∧ (next first).onBuffer middle = (.ok value, rest) := by
  rw [onBuffer_bind]
  constructor
  · intro h
    split at h
    · rename_i first middle hfirst
      exact ⟨first, middle, hfirst, h⟩
    · cases h
  · rintro ⟨first, middle, hfirst, hnext⟩
    rw [hfirst]
    exact hnext

theorem map_eq_ok_iff {reader : Reader α} {make : α → β} {buffer rest : Bytes} {value : β} :
    (do return make (← reader) : Reader β).onBuffer buffer = (.ok value, rest) ↔
      ∃ field, reader.onBuffer buffer = (.ok field, rest) ∧ make field = value := by
  rw [bind_eq_ok_iff]
  constructor
  · rintro ⟨field, middle, hfield, hmake⟩
    cases hmake
    exact ⟨field, hfield, rfl⟩
  · rintro ⟨field, hfield, rfl⟩
    exact ⟨field, rest, hfield, rfl⟩

theorem onBuffer_ensure (needed : Nat) (buffer : Bytes) :
    (ensure needed).onBuffer buffer =
      if buffer.length < needed then (.error (.unexpectedEnd needed buffer.length), buffer)
      else (.ok (), buffer) := by
  show (if buffer.length < needed then fail (.unexpectedEnd needed buffer.length)
    else pure () : Reader Unit).onBuffer buffer = _
  split
  · rfl
  · rfl

theorem onBuffer_bytes (count : Nat) (buffer : Bytes) :
    (bytes count).onBuffer buffer =
      if buffer.length < count then (.error (.unexpectedEnd count buffer.length), buffer)
      else (.ok (buffer.take count), buffer.drop count) := by
  rw [bytes, onBuffer_bind, onBuffer_ensure]
  by_cases hshort : buffer.length < count
  · simp only [hshort, if_true]
  · simp only [hshort, if_false]
    show (Except.ok (buffer.splitAt count).1, (buffer.splitAt count).2) = _
    rw [List.splitAt_eq]

theorem bytes_eq_ok_iff {count : Nat} {buffer rest taken : Bytes} :
    (bytes count).onBuffer buffer = (.ok taken, rest) ↔
      taken.length = count ∧ buffer = taken ++ rest := by
  rw [onBuffer_bytes]
  constructor
  · intro h
    split at h
    · cases h
    · rename_i hlong
      cases h
      exact ⟨List.length_take_of_le (Nat.not_lt.1 hlong), (List.take_append_drop _ _).symm⟩
  · rintro ⟨rfl, rfl⟩
    have hlong : ¬ (taken ++ rest).length < taken.length := by
      rw [List.length_append]
      omega
    rw [if_neg hlong, List.take_left, List.drop_left]

/-- To take groups one after another is to look at the front of the buffer and then to take what the
number needs. -/
theorem onBuffer_groups (tooLong : Fault) : ∀ (room : Nat) (buffer : Bytes),
    (groups tooLong room).onBuffer buffer =
      match VarNum.front room buffer with
      | .complete value used => (.ok value, buffer.drop used)
      | .incomplete => (.error (.unexpectedEnd 1 0), [])
      | .overlong => (.error tooLong, buffer.drop room) := by
  intro room
  induction room with
  | zero => intro buffer; rfl
  | succ room ih =>
      intro buffer
      cases buffer with
      | nil => rfl
      | cons first rest =>
          have hbyte : byte.onBuffer (first :: rest) = (.ok first, rest) := rfl
          rw [groups, onBuffer_bind_of_ok hbyte, VarNum.front]
          split
          · rfl
          · rw [onBuffer_bind, ih rest]
            cases VarNum.front room rest with
            | complete value used => rfl
            | incomplete => rfl
            | overlong => rfl

/-! ## Readers and writers -/

/-- An admitted value is read as it was written, whatever follows.  One that is not is refused, if
its length fits a prefix.  What is read from any bytes is admitted, and takes no more bytes to write
than were read. -/
structure Undoes (reader : Reader α) (write : α → Bytes) (admits : α → Prop) : Prop where
  read_write : ∀ {value : α} (rest : Bytes), admits value →
    reader.onBuffer (write value ++ rest) = (.ok value, rest)
  refuses : ∀ {value : α} (rest : Bytes), ¬ admits value → (write value).length < 2 ^ 31 →
    ∃ fault left, reader.onBuffer (write value ++ rest) = (.error fault, left)
  of_read : ∀ {value : α} {buffer rest : Bytes}, reader.onBuffer buffer = (.ok value, rest) →
    admits value ∧ (write value).length + rest.length ≤ buffer.length

theorem none_undoes : (pure () : Reader Unit).Undoes (fun _ => []) fun _ => True where
  read_write := fun _ _ => rfl
  refuses := fun _ hnot => absurd True.intro hnot
  of_read := by
    intro value buffer rest h
    cases h
    exact ⟨True.intro, Nat.le_of_eq (Nat.zero_add _)⟩

theorem varInt_undoes : varInt.Undoes Field.varInt fun _ => True where
  read_write := by
    intro value rest _
    have hgroups := onBuffer_groups .varIntTooLong VarNum.intBytes (Field.varInt value ++ rest)
    simp only [Field.varInt, VarNum.front_encodeInt, List.drop_left] at hgroups
    exact map_eq_ok_iff.2 ⟨_, hgroups, VarNum.ofNat_toUInt32 value⟩
  refuses := fun _ hnot => absurd True.intro hnot
  of_read := by
    intro value buffer rest h
    obtain ⟨number, hnumber, rfl⟩ := map_eq_ok_iff.1 h
    rw [onBuffer_groups] at hnumber
    split at hnumber
    · rename_i found used hfront
      cases hnumber
      obtain ⟨-, -, hused⟩ := VarNum.front_complete_bounds hfront
      have hshort := VarNum.length_encodeInt_le hfront
      refine ⟨True.intro, ?_⟩
      rw [Field.varInt, List.length_drop]
      omega
    · cases hnumber
    · cases hnumber

theorem bigEndian_undoes {width : Nat} {make : Nat → α} {number : α → Nat}
    (hmake : ∀ value, make (number value % 256 ^ width) = value) :
    (do return make (← bigEndian width) : Reader α).Undoes
      (fun value => Bytes.toBigEndian width (number value)) fun _ => True where
  read_write := by
    intro value rest _
    have hbytes := bytes_eq_ok_iff.2
      ⟨Bytes.length_toBigEndian width (number value), rfl (a := _ ++ rest)⟩
    refine map_eq_ok_iff.2 ⟨_, map_eq_ok_iff.2 ⟨_, hbytes, rfl⟩, ?_⟩
    rw [Bytes.ofBigEndian_toBigEndian, hmake]
  refuses := fun _ hnot => absurd True.intro hnot
  of_read := by
    intro value buffer rest h
    obtain ⟨_, hnumber, rfl⟩ := map_eq_ok_iff.1 h
    obtain ⟨taken, hbytes, rfl⟩ := map_eq_ok_iff.1 hnumber
    obtain ⟨hwidth, rfl⟩ := bytes_eq_ok_iff.1 hbytes
    rw [Bytes.length_toBigEndian, List.length_append, hwidth]
    exact ⟨True.intro, Nat.le_refl _⟩

theorem word16_undoes : word16.Undoes Field.word16 fun _ => True := by
  refine bigEndian_undoes fun value => ?_
  have hfits : value.toNat < 256 ^ 2 := value.toNat_lt
  rw [Nat.mod_eq_of_lt hfits, UInt16.ofNat_toNat]

theorem int64_undoes : int64.Undoes Field.int64 fun _ => True := by
  refine bigEndian_undoes fun value => ?_
  have hfits : value.toUInt64.toNat < 256 ^ 8 := value.toUInt64.toNat_lt
  rw [Nat.mod_eq_of_lt hfits]
  apply Int64.toBitVec_inj.1
  show BitVec.ofNat 64 value.toUInt64.toNat = value.toBitVec
  exact BitVec.ofNat_toNat _ _

/-! ## Fields behind a length -/

theorem length_read_write (count : Nat) (rest : Bytes) (hcount : count < 2 ^ 31) :
    length.onBuffer (Field.length count ++ rest) = (.ok count, rest) := by
  refine bind_eq_ok_iff.2 ⟨_, _, varInt_undoes.read_write rest True.intro, ?_⟩
  rw [if_neg (Frame.not_neg_ofNat hcount), Frame.toInt_ofNat_of_lt hcount]
  rfl

/-- A negative length is refused, so what is read is the number that its prefix holds. -/
theorem length_of_read {count : Nat} {buffer rest : Bytes}
    (h : length.onBuffer buffer = (.ok count, rest)) :
    (Field.length count).length + rest.length ≤ buffer.length := by
  obtain ⟨prefixed, middle, hprefix, hcount⟩ := bind_eq_ok_iff.1 h
  obtain ⟨-, hlength⟩ := varInt_undoes.of_read hprefix
  split at hcount
  · cases hcount
  · rename_i hpositive
    cases hcount
    rw [Int32.lt_iff_toInt_lt, Int32.toInt_zero] at hpositive
    have hback : Int32.ofNat prefixed.toInt.toNat = prefixed := by
      rw [← Int32.ofInt_eq_ofNat, Int.toNat_of_nonneg (Int.not_lt.1 hpositive),
        Int32.ofInt_toInt]
    rw [Field.length, hback]
    exact hlength

theorem array_eq_ok_iff {max : Nat} {buffer rest value : Bytes} :
    (array max).onBuffer buffer = (.ok value, rest) ↔
      length.onBuffer buffer = (.ok value.length, value ++ rest) ∧ value.length ≤ max := by
  constructor
  · intro h
    obtain ⟨declared, middle, hdeclared, hbytes⟩ := bind_eq_ok_iff.1 h
    split at hbytes
    · cases hbytes
    · rename_i hfits
      obtain ⟨rfl, rfl⟩ := bytes_eq_ok_iff.1 hbytes
      exact ⟨hdeclared, Nat.not_lt.1 hfits⟩
  · rintro ⟨hdeclared, hfits⟩
    rw [array, onBuffer_bind_of_ok hdeclared, if_neg (Nat.not_lt.2 hfits)]
    exact bytes_eq_ok_iff.2 ⟨rfl, rfl⟩

theorem onBuffer_array_of_lt {max : Nat} {value : Bytes} (rest : Bytes)
    (hfits : value.length < 2 ^ 31) (hmax : max < value.length) :
    (array max).onBuffer (Field.array value ++ rest)
      = (.error (.tooLarge value.length), value ++ rest) := by
  have hlength := length_read_write value.length (value ++ rest) hfits
  rw [Field.array, List.append_assoc, array, onBuffer_bind_of_ok hlength, if_pos hmax]
  rfl

theorem array_undoes (max : Nat) (hmax : max < 2 ^ 31) :
    (array max).Undoes Field.array fun bytes => bytes.length ≤ max where
  read_write := by
    intro bytes rest hbytes
    rw [Field.array, List.append_assoc]
    exact array_eq_ok_iff.2
      ⟨length_read_write _ (bytes ++ rest) (Nat.lt_of_le_of_lt hbytes hmax), hbytes⟩
  refuses := by
    intro bytes rest hbytes hfits
    rw [Field.array, List.length_append] at hfits
    exact ⟨_, _, onBuffer_array_of_lt rest (by omega) (Nat.not_le.1 hbytes)⟩
  of_read := by
    intro bytes buffer rest h
    obtain ⟨hdeclared, hfits⟩ := array_eq_ok_iff.1 h
    have hlength := length_of_read hdeclared
    rw [Field.array]
    rw [List.length_append] at hlength ⊢
    exact ⟨hfits, by omega⟩

/-- A text with no more characters than its limit is not refused for its bytes. -/
theorem length_ofText_le_textBytes {max : Nat} {value : String}
    (hfits : (Bytes.ofText value).length < 2 ^ 31) (hsize : value.length ≤ max) :
    (Bytes.ofText value).length ≤ textBytes max := by
  have hbytes := Bytes.length_ofText_le value
  rw [textBytes, UInt64.size]
  omega

theorem lt_of_textBytes_lt {max count : Nat} (hfits : count < 2 ^ 31) (h : textBytes max < count) :
    max < count := by
  rw [textBytes, UInt64.size] at h
  omega

/-- A text is read where the length of its UTF-8 form stands, within the limit and in front of that
form, if it has not too many characters either. -/
theorem text_eq_ok_iff {max : Nat} {buffer rest : Bytes} {value : String} :
    (text max).onBuffer buffer = (.ok value, rest) ↔
      length.onBuffer buffer = (.ok (Bytes.ofText value).length, Bytes.ofText value ++ rest)
        ∧ (Bytes.ofText value).length ≤ textBytes max ∧ value.length ≤ max := by
  constructor
  · intro h
    obtain ⟨declared, middle, hdeclared, hbytes⟩ := bind_eq_ok_iff.1 h
    split at hbytes
    · cases hbytes
    · rename_i hshort
      obtain ⟨raw, left, hraw, htext⟩ := bind_eq_ok_iff.1 hbytes
      obtain ⟨rfl, rfl⟩ := bytes_eq_ok_iff.1 hraw
      split at htext
      · cases htext
      · rename_i found hfound
        obtain rfl := Bytes.toText?_eq_some_iff.1 hfound
        split at htext
        · cases htext
        · rename_i hfits
          cases htext
          exact ⟨hdeclared, Nat.not_lt.1 hshort, Nat.not_lt.1 hfits⟩
  · rintro ⟨hdeclared, hshort, hfits⟩
    have htaken : (bytes (Bytes.ofText value).length).onBuffer (Bytes.ofText value ++ rest)
        = (.ok (Bytes.ofText value), rest) := bytes_eq_ok_iff.2 ⟨rfl, rfl⟩
    rw [text, onBuffer_bind_of_ok hdeclared, if_neg (Nat.not_lt.2 hshort),
      onBuffer_bind_of_ok htaken, Bytes.toText?_eq_some_iff.2 rfl]
    dsimp only
    rw [if_neg (Nat.not_lt.2 hfits)]
    rfl

/-- Too many bytes are seen before a text is read, too many characters after it. -/
theorem onBuffer_text_of_lt {max : Nat} {value : String} (rest : Bytes)
    (hfits : (Bytes.ofText value).length < 2 ^ 31) (hmax : max < value.length) :
    ∃ length left, max < length
      ∧ (text max).onBuffer (Field.text value ++ rest)
        = (.error (.textTooLong length max), left) := by
  have hlength := length_read_write _ (Bytes.ofText value ++ rest) hfits
  have htaken : (bytes (Bytes.ofText value).length).onBuffer (Bytes.ofText value ++ rest)
      = (.ok (Bytes.ofText value), rest) := bytes_eq_ok_iff.2 ⟨rfl, rfl⟩
  rw [Field.text, Field.array, List.append_assoc, text, onBuffer_bind_of_ok hlength]
  split
  · rename_i hbytes
    exact ⟨_, _, lt_of_textBytes_lt hfits hbytes, rfl⟩
  · rw [onBuffer_bind_of_ok htaken, Bytes.toText?_eq_some_iff.2 rfl]
    dsimp only
    rw [if_pos hmax]
    exact ⟨_, _, hmax, rfl⟩

theorem text_undoes (max : Nat) (hmax : max * 4 < 2 ^ 31) :
    (text max).Undoes Field.text fun text => text.length ≤ max where
  read_write := by
    intro value rest hvalue
    have hbytes := Bytes.length_ofText_le value
    have hfits : (Bytes.ofText value).length < 2 ^ 31 := by omega
    rw [Field.text, Field.array, List.append_assoc]
    exact text_eq_ok_iff.2
      ⟨length_read_write _ _ hfits, length_ofText_le_textBytes hfits hvalue, hvalue⟩
  refuses := by
    intro value rest hvalue hfits
    rw [Field.text, Field.array, List.length_append] at hfits
    obtain ⟨_, _, -, hread⟩ := onBuffer_text_of_lt rest (by omega) (Nat.not_le.1 hvalue)
    exact ⟨_, _, hread⟩
  of_read := by
    intro value buffer rest h
    obtain ⟨hdeclared, -, hfits⟩ := text_eq_ok_iff.1 h
    have hlength := length_of_read hdeclared
    rw [Field.text, Field.array]
    rw [List.length_append] at hlength ⊢
    exact ⟨hfits, by omega⟩

/-! ## Fields in a row -/

/-- Two fields in a row. -/
def both (first : Reader α) (second : Reader β) : Reader (α × β) := do
  let left ← first
  return (left, ← second)

theorem both_eq_ok_iff {first : Reader α} {second : Reader β} {buffer rest : Bytes}
    {value : α × β} :
    (both first second).onBuffer buffer = (.ok value, rest) ↔
      ∃ middle, first.onBuffer buffer = (.ok value.1, middle)
        ∧ second.onBuffer middle = (.ok value.2, rest) := by
  rw [both, bind_eq_ok_iff]
  constructor
  · rintro ⟨left, middle, hleft, hright⟩
    obtain ⟨right, hsecond, rfl⟩ := map_eq_ok_iff.1 hright
    exact ⟨middle, hleft, hsecond⟩
  · rintro ⟨middle, hleft, hright⟩
    exact ⟨value.1, middle, hleft, map_eq_ok_iff.2 ⟨value.2, hright, rfl⟩⟩

theorem Undoes.both {first : Reader α} {second : Reader β} {writeFirst : α → Bytes}
    {writeSecond : β → Bytes} {admitsFirst : α → Prop} {admitsSecond : β → Prop}
    (hfirst : first.Undoes writeFirst admitsFirst)
    (hsecond : second.Undoes writeSecond admitsSecond) :
    (first.both second).Undoes (fun value => writeFirst value.1 ++ writeSecond value.2)
      fun value => admitsFirst value.1 ∧ admitsSecond value.2 where
  read_write := by
    rintro ⟨left, right⟩ rest ⟨hleft, hright⟩
    rw [List.append_assoc]
    exact both_eq_ok_iff.2
      ⟨_, hfirst.read_write _ hleft, hsecond.read_write rest hright⟩
  refuses := by
    rintro ⟨left, right⟩ rest hnot hfits
    simp only [List.length_append] at hfits
    rw [List.append_assoc, Reader.both, onBuffer_bind]
    by_cases hleft : admitsFirst left
    · obtain ⟨fault, rest, hfault⟩ :=
        hsecond.refuses rest (fun hright => hnot ⟨hleft, hright⟩)
          (show (writeSecond right).length < 2 ^ 31 by omega)
      rw [hfirst.read_write _ hleft]
      show ∃ fault left, (do return (_, ← second) : Reader (α × β)).onBuffer _ = _
      rw [onBuffer_bind, hfault]
      exact ⟨fault, rest, rfl⟩
    · obtain ⟨fault, rest, hfault⟩ :=
        hfirst.refuses (writeSecond right ++ rest) hleft (by omega)
      rw [hfault]
      exact ⟨fault, rest, rfl⟩
  of_read := by
    intro value buffer rest h
    obtain ⟨middle, hleft, hright⟩ := both_eq_ok_iff.1 h
    obtain ⟨hadmitsLeft, hlengthLeft⟩ := hfirst.of_read hleft
    obtain ⟨hadmitsRight, hlengthRight⟩ := hsecond.of_read hright
    rw [List.length_append]
    exact ⟨⟨hadmitsLeft, hadmitsRight⟩, by omega⟩

end Reader
end PhaseWire
