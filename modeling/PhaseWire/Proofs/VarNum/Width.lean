import PhaseWire.Proofs.Field
import PhaseWire.Proofs.VarNum.Spelling

/-
# Numbers of two widths

There are numbers of 32 and of 64 bits.  A `Width` is what belongs to one
of them: the writer, the size that is told beforehand, the reader that
looks at a buffer and the one that takes byte after byte.  Whatever holds
of both is stated of a width, and rests on `IsLawful` only, which says
what each part is made from.

Two things hold of both.  Writing is exact (`IsExact`): what is written is
read back whatever follows, is as long as was told, has no part that would
be read as a number, and is the only spelling of that length.  And reading
is determined (`IsDetermined`): on every buffer, of an encoder or not, both
readers say what the buffer spells.
-/

namespace PhaseWire.VarNum

/-- One kind of numbers, with their writer and their readers. -/
structure Width (Number : Type) where
  bits : Nat
  /-- The most bytes that a number takes. -/
  room : Nat
  /-- The largest byte that may end a number of so many bytes without a bit being dropped. -/
  top : UInt8
  tooLong : Fault
  unsigned : Number → Nat
  signed : Number → Int
  /-- The number that has the low bits of another. -/
  ofNat : Nat → Number
  encode : Number → Bytes
  size : Number → Nat
  /-- Looks at the front of a buffer. -/
  peek : Bytes → Except Fault (Option (Number × Nat))
  /-- Takes byte after byte. -/
  take : Reader Number

namespace Width

def int : Width Int32 where
  bits := 32
  room := intBytes
  top := 0x0F
  tooLong := .varIntTooLong
  unsigned value := value.toUInt32.toNat
  signed := Int32.toInt
  ofNat := Int32.ofNat
  encode := encodeInt
  size := intSize
  peek := peekInt
  take := Reader.varInt

def long : Width Int64 where
  bits := 64
  room := longBytes
  top := 0x01
  tooLong := .varLongTooLong
  unsigned value := value.toUInt64.toNat
  signed := Int64.toInt
  ofNat := Int64.ofNat
  encode := encodeLong
  size := longSize
  peek := peekLong
  take := Reader.varLong

variable {Number : Type}

/-! ## What holds of both -/

/-- Numbers are read as they are written, and no bytes can be taken for others. -/
structure IsExact (width : Width Number) : Prop where
  length_encode : ∀ value, (width.encode value).length = width.size value
  size_le_room : ∀ value, width.size value ≤ width.room
  /-- A greater number is not shorter. -/
  size_mono : ∀ value other, width.unsigned value ≤ width.unsigned other →
    width.size value ≤ width.size other
  peek_encode : ∀ value rest,
    width.peek (width.encode value ++ rest) = .ok (some (value, width.size value))
  take_encode : ∀ value rest,
    width.take.onBuffer (width.encode value ++ rest) = (.ok value, rest)
  /-- Every proper part of a number asks for more. -/
  peek_part : ∀ value part, part <+: width.encode value → part ≠ width.encode value →
    width.peek part = .ok none
  /-- A number is not found in fewer bytes than it is written in. -/
  size_le_used : ∀ buffer value used, width.peek buffer = .ok (some (value, used)) →
    width.size value ≤ used
  /-- If it is found in as many, and no bit of the last byte was dropped, it is found as it is
  written. -/
  encode_isPrefix : ∀ buffer value used, width.peek buffer = .ok (some (value, used)) →
    used = width.size value →
    (used = width.room → ∀ last, buffer[used - 1]? = some last → last ≤ width.top) →
    width.encode value <+: buffer

/-- Both readers say of every buffer what it spells. -/
structure IsDetermined (width : Width Number) : Prop where
  /-- A byte that says that nothing follows is there, and not too late: the number is the low bits
  of what the bytes up to it weigh, with the highest one as its sign. -/
  whole : ∀ buffer, continued buffer < width.room → continued buffer < buffer.length →
    ∃ value,
      width.signed value
          = Int.bmod (weight (buffer.take (continued buffer + 1))) (2 ^ width.bits)
        ∧ width.peek buffer = .ok (some (value, continued buffer + 1))
        ∧ width.take.onBuffer buffer = (.ok value, buffer.drop (continued buffer + 1))
  /-- All bytes say that more follow, and more may. -/
  short : ∀ buffer, buffer.length < width.room → continued buffer = buffer.length →
    width.peek buffer = .ok none
      ∧ width.take.onBuffer buffer = (.error (.unexpectedEnd 1 0), [])
  /-- So many bytes say that more follow that no more may. -/
  long : ∀ buffer, width.room ≤ continued buffer →
    width.peek buffer = .error width.tooLong
      ∧ width.take.onBuffer buffer = (.error width.tooLong, buffer.drop width.room)

/-! ## What it rests on -/

/-- What the parts of a width are made from. -/
structure IsLawful (width : Width Number) : Prop where
  room_pos : 0 < width.room
  /-- The last byte of the longest numbers holds what the others leave of the bits. -/
  two_pow_bits : 2 ^ width.bits = 128 ^ (width.room - 1) * (width.top.toNat + 1)
  top_lt : width.top < 128
  unsigned_lt : ∀ value, width.unsigned value < 2 ^ width.bits
  ofNat_unsigned : ∀ value, width.ofNat (width.unsigned value) = value
  unsigned_ofNat : ∀ value, width.unsigned (width.ofNat value) = value % 2 ^ width.bits
  signed_ofNat : ∀ value, width.signed (width.ofNat value) = Int.bmod value (2 ^ width.bits)
  encode_eq : ∀ value, width.encode value = groups width.room (width.unsigned value)
  needs_size : ∀ value, Needs (width.unsigned value) (width.size value)
  peek_eq : ∀ buffer, width.peek buffer =
    match front width.room buffer with
    | .complete value used => .ok (some (width.ofNat value, used))
    | .incomplete => .ok none
    | .overlong => .error width.tooLong
  take_eq : width.take = do return width.ofNat (← Reader.groups width.tooLong width.room)

namespace IsLawful

variable {width : Width Number} (h : width.IsLawful)
include h

theorem onBuffer_take (buffer : Bytes) : width.take.onBuffer buffer =
    match front width.room buffer with
    | .complete value used => (.ok (width.ofNat value), buffer.drop used)
    | .incomplete => (.error (.unexpectedEnd 1 0), [])
    | .overlong => (.error width.tooLong, buffer.drop width.room) := by
  rw [h.take_eq, Reader.onBuffer_bind, Reader.onBuffer_groups]
  cases front width.room buffer with
  | complete value used => rfl
  | incomplete => rfl
  | overlong => rfl

theorem peek_eq_some_iff {buffer : Bytes} {value : Number} {used : Nat} :
    width.peek buffer = .ok (some (value, used)) ↔
      ∃ found, front width.room buffer = .complete found used ∧ width.ofNat found = value := by
  rw [h.peek_eq]
  cases front width.room buffer with
  | complete found count =>
      simp only [Except.ok.injEq, Option.some.injEq, Prod.mk.injEq, Front.complete.injEq]
      constructor
      · rintro ⟨hvalue, rfl⟩
        exact ⟨found, ⟨rfl, rfl⟩, hvalue⟩
      · rintro ⟨_, ⟨rfl, rfl⟩, hvalue⟩
        exact ⟨hvalue, rfl⟩
  | incomplete => simp
  | overlong => simp

theorem unsigned_fits (value : Number) :
    ∃ others, width.room = others + 1 ∧ width.unsigned value < 128 ^ (others + 1) := by
  obtain ⟨others, hroom⟩ := Nat.exists_eq_succ_of_ne_zero h.room_pos.ne'
  have htop := (lt_128_iff width.top).mp h.top_lt
  refine ⟨others, hroom, Nat.lt_of_lt_of_le (h.unsigned_lt value) ?_⟩
  rw [h.two_pow_bits, hroom, Nat.pow_succ]
  exact Nat.mul_le_mul_left _ htop

theorem front_encode (value : Number) (rest : Bytes) :
    front width.room (width.encode value ++ rest)
      = .complete (width.unsigned value) (width.encode value).length := by
  obtain ⟨others, hroom, hfits⟩ := h.unsigned_fits value
  rw [h.encode_eq, hroom]
  exact front_groups others _ rest hfits

theorem length_encode (value : Number) : (width.encode value).length = width.size value := by
  obtain ⟨others, hroom, hfits⟩ := h.unsigned_fits value
  rw [h.encode_eq, hroom]
  exact (needs_groups hfits).unique (h.needs_size value)

theorem size_le_room (value : Number) : width.size value ≤ width.room := by
  obtain ⟨others, hroom, hfits⟩ := h.unsigned_fits value
  rw [hroom]
  exact (h.needs_size value).le_of_fits (Nat.succ_pos others) hfits

/-- Of a number that ends in good time, or in a byte that is not too large, no bit is dropped. -/
theorem unsigned_of_front {buffer : Bytes} {value used : Nat}
    (hfront : front width.room buffer = .complete value used)
    (hlast : used = width.room → ∀ last, buffer[used - 1]? = some last → last ≤ width.top) :
    width.unsigned (width.ofNat value) = value := by
  have hlt : value < 2 ^ width.bits := by
    rw [h.two_pow_bits]
    obtain ⟨hpos, hroom, -⟩ := front_complete_bounds hfront
    -- only the last byte that there is room for can hold more than the bits that are left
    rcases Nat.lt_or_eq_of_le hroom with hearly | hlate
    · calc value < 128 ^ used := front_complete_lt hfront
        _ ≤ 128 ^ (width.room - 1) := Nat.pow_le_pow_right (by decide) (by omega)
        _ ≤ 128 ^ (width.room - 1) * (width.top.toNat + 1) := Nat.le_mul_of_pos_right _ (by omega)
    · obtain ⟨others, rfl⟩ := Nat.exists_eq_succ_of_ne_zero hpos.ne'
      obtain ⟨last, hthere, hvalue⟩ := front_complete_last hfront
      have htop := UInt8.le_iff_toNat_le.mp (hlast hlate last hthere)
      rw [← hlate]
      exact Nat.lt_of_lt_of_le hvalue (Nat.mul_le_mul_left _ (Nat.succ_le_succ htop))
  rw [h.unsigned_ofNat, Nat.mod_eq_of_lt hlt]

theorem isExact : width.IsExact where
  length_encode := h.length_encode
  size_le_room := h.size_le_room
  size_mono value other hle := (h.needs_size value).mono (h.needs_size other) hle
  peek_encode value rest :=
    h.peek_eq_some_iff.mpr
      ⟨_, h.length_encode value ▸ h.front_encode value rest, h.ofNat_unsigned value⟩
  take_encode value rest := by
    rw [h.onBuffer_take, h.front_encode]
    dsimp only
    rw [h.ofNat_unsigned, List.drop_left]
  peek_part value part hpart hless := by
    have hwhole := h.front_encode value []
    rw [List.append_nil] at hwhole
    rw [h.peek_eq, front_part hwhole hpart hless]
  size_le_used buffer value used hpeek := by
    obtain ⟨found, hfront, rfl⟩ := h.peek_eq_some_iff.mp hpeek
    obtain ⟨hpos, -, -⟩ := front_complete_bounds hfront
    refine (h.needs_size _).le_of_fits hpos ?_
    rw [h.unsigned_ofNat]
    exact Nat.lt_of_le_of_lt (Nat.mod_le _ _) (front_complete_lt hfront)
  encode_isPrefix buffer value used hpeek hsize hlast := by
    obtain ⟨found, hfront, rfl⟩ := h.peek_eq_some_iff.mp hpeek
    have hfound := h.unsigned_of_front hfront hlast
    have hneeds := h.needs_size (width.ofNat found)
    rw [hfound, ← hsize] at hneeds
    rw [h.encode_eq, hfound, groups_of_front hfront hneeds]
    exact List.take_prefix used buffer

theorem isDetermined : width.IsDetermined where
  whole buffer hroom hthere := by
    refine ⟨width.ofNat _, h.signed_ofNat _, ?_, ?_⟩
    · rw [h.peek_eq, front_eq, if_pos hroom, if_pos hthere]
    · rw [h.onBuffer_take, front_eq, if_pos hroom, if_pos hthere]
  short buffer hshort hall := by
    have hend : ¬ continued buffer < buffer.length := by omega
    have hroom : continued buffer < width.room := hall ▸ hshort
    rw [h.peek_eq, h.onBuffer_take, front_eq, if_pos hroom, if_neg hend]
    exact ⟨rfl, rfl⟩
  long buffer hlong := by
    rw [h.peek_eq, h.onBuffer_take, front_eq, if_neg (Nat.not_lt.mpr hlong)]
    exact ⟨rfl, rfl⟩

end IsLawful

/-! ## The two widths -/

/-- The ranges are those of the groups. -/
theorem needs_intSize (value : Int32) : Needs value.toUInt32.toNat (intSize value) := by
  have hlt := value.toUInt32.toNat_lt
  rw [intSize]
  split
  · exact .one ‹_›
  · split
    · exact .of_bounds (by omega) (by omega)
    · split
      · exact .of_bounds (by omega) (by omega)
      · split
        · exact .of_bounds (by omega) (by omega)
        · exact .of_bounds (by omega) (by omega)

theorem needs_longSize (value : Int64) : Needs value.toUInt64.toNat (longSize value) := by
  rw [longSize]
  generalize value.toUInt64.toNat = number
  rcases Nat.eq_zero_or_pos number with rfl | hpos
  · exact .one (by decide)
  · have hgroups : ∀ count : Nat, 128 ^ count = 2 ^ (7 * count) :=
      fun count => (Nat.pow_mul 2 7 count).symm
    refine .of_bounds ?_ ?_
    · calc 128 ^ (number.log2 / 7) = 2 ^ (7 * (number.log2 / 7)) := hgroups _
        _ ≤ 2 ^ number.log2 := Nat.pow_le_pow_right (by decide) (Nat.mul_div_le _ _)
        _ ≤ number := Nat.log2_self_le hpos.ne'
    · calc number < 2 ^ (number.log2 + 1) := Nat.lt_log2_self
        _ ≤ 2 ^ (7 * (number.log2 / 7 + 1)) := Nat.pow_le_pow_right (by decide) (by omega)
        _ = 128 ^ (number.log2 / 7 + 1) := (hgroups _).symm

theorem int_isLawful : int.IsLawful where
  room_pos := by decide
  two_pow_bits := by decide
  top_lt := by decide
  unsigned_lt value := value.toUInt32.toNat_lt
  ofNat_unsigned := ofNat_toUInt32
  unsigned_ofNat value := by simp [int]
  signed_ofNat value := Int32.toInt_ofNat'
  encode_eq _ := rfl
  needs_size := needs_intSize
  peek_eq _ := rfl
  take_eq := rfl

theorem long_isLawful : long.IsLawful where
  room_pos := by decide
  two_pow_bits := by decide
  top_lt := by decide
  unsigned_lt value := value.toUInt64.toNat_lt
  ofNat_unsigned value := by
    apply Int64.toBitVec_inj.1
    show BitVec.ofNat 64 value.toUInt64.toNat = value.toBitVec
    exact BitVec.ofNat_toNat _ _
  unsigned_ofNat value := by simp [long]
  signed_ofNat value := Int64.toInt_ofNat'
  encode_eq _ := rfl
  needs_size := needs_longSize
  peek_eq _ := rfl
  take_eq := rfl

/-- Numbers of both widths are read as they were written. -/
theorem writing_exact : int.IsExact ∧ long.IsExact :=
  ⟨int_isLawful.isExact, long_isLawful.isExact⟩

-- Of a fifth byte only the low bits count, so what is above them is another spelling.
example : peekInt [0x80, 0x80, 0x80, 0x80, 0x18] = .ok (some (-2147483648, 5))
    ∧ encodeInt (-2147483648) = [0x80, 0x80, 0x80, 0x80, 0x08] := by
  decide

/-- On every buffer the two readers of either width agree. -/
theorem reading_determined : int.IsDetermined ∧ long.IsDetermined :=
  ⟨int_isLawful.isDetermined, long_isLawful.isDetermined⟩

end Width
end PhaseWire.VarNum
