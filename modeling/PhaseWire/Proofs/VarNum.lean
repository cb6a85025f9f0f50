import Mathlib.Algebra.Group.Nat.Defs
import PhaseWire.VarNum

/-
# Reading variable-length numbers

The two facts about `VarNum.front` that framing rests on.  What `groups`
writes is read back whatever follows it (`front_groups`), and a verdict on
the front of a buffer is not changed by bytes that arrive later
(`front_append`).  Between them stand the bounds on how many bytes a
number takes: they are what makes a drain end and an incomplete prefix
short.
-/

namespace PhaseWire.VarNum

/-! ## Reading what was written -/

theorem toNat_toUInt8_of_lt {n : Nat} (h : n < 256) : n.toUInt8.toNat = n := by
  simp only [Nat.toUInt8_eq, UInt8.toNat_ofNat']
  exact Nat.mod_eq_of_lt h

theorem lt_128_iff (byte : UInt8) : byte < 128 ↔ byte.toNat < 128 :=
  UInt8.lt_iff_toNat_lt

/-- The groups of a number that fits are read as that number, whatever follows. -/
theorem front_groups : ∀ (room value : Nat) (rest : Bytes), value < 128 ^ (room + 1) →
    front (room + 1) (groups (room + 1) value ++ rest)
      = .complete value (groups (room + 1) value).length := by
  intro room
  induction room with
  | zero =>
      intro value rest h
      have hv : value < 128 := by simpa using h
      have hb : value.toUInt8.toNat = value := toNat_toUInt8_of_lt (by omega)
      simp [groups, front, hv, lt_128_iff, hb]
  | succ room ih =>
      intro value rest h
      rw [groups]
      split
      · rename_i hv
        have hb : value.toUInt8.toNat = value := toNat_toUInt8_of_lt (by omega)
        simp [front, lt_128_iff, hb, hv]
      · rename_i hv
        have hb : (value % 128 + 128).toUInt8.toNat = value % 128 + 128 :=
          toNat_toUInt8_of_lt (by omega)
        have hq : value / 128 < 128 ^ (room + 1) :=
          Nat.div_lt_of_lt_mul (by rw [Nat.pow_succ] at h; omega)
        have hn : ¬ value % 128 + 128 < 128 := by omega
        rw [List.cons_append, front, ih _ rest hq]
        simp only [lt_128_iff, hb, hn, if_false, List.length_cons, Front.complete.injEq, and_true]
        omega

theorem groups_ne_nil (room value : Nat) : groups (room + 1) value ≠ [] := by
  rw [groups]
  split <;> exact List.cons_ne_nil _ _

theorem length_groups_le_of_lt : ∀ (room : Nat) {value count : Nat}, value < 128 ^ (count + 1) →
    (groups room value).length ≤ count + 1 := by
  intro room
  induction room with
  | zero => intro value count _; exact Nat.zero_le _
  | succ room ih =>
      intro value count h
      rw [groups]
      split
      · exact Nat.succ_le_succ (Nat.zero_le count)
      · rename_i hlarge
        cases count with
        | zero => exact absurd h (by omega)
        | succ count =>
            have hrest : value / 128 < 128 ^ (count + 1) :=
              Nat.div_lt_of_lt_mul (by rw [Nat.pow_succ] at h; omega)
            exact Nat.succ_le_succ (ih hrest)

theorem encodeInt_ne_nil (value : Int32) : encodeInt value ≠ [] :=
  groups_ne_nil 4 _

theorem ofNat_toUInt32 (value : Int32) : Int32.ofNat value.toUInt32.toNat = value := by
  apply Int32.toBitVec_inj.1
  show BitVec.ofNat 32 value.toUInt32.toNat = value.toBitVec
  exact BitVec.ofNat_toNat _ _

theorem front_encodeInt (value : Int32) (rest : Bytes) :
    front intBytes (encodeInt value ++ rest)
      = .complete value.toUInt32.toNat (encodeInt value).length := by
  have hlt : value.toUInt32.toNat < 128 ^ 5 := by
    have := value.toUInt32.toNat_lt
    omega
  exact front_groups 4 _ rest hlt

/-- A 32-bit number is read back from what it is written as, whatever follows. -/
theorem peekInt_encodeInt (value : Int32) (rest : Bytes) :
    peekInt (encodeInt value ++ rest) = .ok (some (value, (encodeInt value).length)) := by
  rw [peekInt, front_encodeInt]
  simp only [ofNat_toUInt32]

/-! ## What a verdict says about the buffer -/

theorem front_complete_bounds : ∀ {room : Nat} {buffer : Bytes} {value used : Nat},
    front room buffer = .complete value used →
      0 < used ∧ used ≤ room ∧ used ≤ buffer.length := by
  intro room
  induction room with
  | zero => intro buffer value used h; simp [front] at h
  | succ room ih =>
      intro buffer value used h
      cases buffer with
      | nil => simp [front] at h
      | cons byte rest =>
          rw [front] at h
          split at h
          · obtain ⟨-, rfl⟩ := Front.complete.inj h
            simp
          · split at h
            · rename_i inner count hinner
              obtain ⟨-, rfl⟩ := Front.complete.inj h
              obtain ⟨-, hroom, hlen⟩ := ih hinner
              exact ⟨by omega, by omega, by simpa using hlen⟩
            · exact absurd h (by simp)
            · exact absurd h (by simp)

theorem front_incomplete_length : ∀ {room : Nat} {buffer : Bytes},
    front room buffer = .incomplete → buffer.length < room := by
  intro room
  induction room with
  | zero => intro buffer h; simp [front] at h
  | succ room ih =>
      intro buffer h
      cases buffer with
      | nil => simp
      | cons byte rest =>
          rw [front] at h
          split at h
          · exact absurd h (by simp)
          · split at h
            · exact absurd h (by simp)
            · rename_i hinner
              simpa using ih hinner
            · exact absurd h (by simp)

theorem front_complete_lt : ∀ {room : Nat} {buffer : Bytes} {value used : Nat},
    front room buffer = .complete value used → value < 128 ^ used := by
  intro room
  induction room with
  | zero => intro buffer value used h; simp [front] at h
  | succ room ih =>
      intro buffer value used h
      cases buffer with
      | nil => simp [front] at h
      | cons byte rest =>
          rw [front] at h
          split at h
          · rename_i hbyte
            obtain ⟨rfl, rfl⟩ := Front.complete.inj h
            simpa using (lt_128_iff byte).1 hbyte
          · split at h
            · rename_i inner count hinner
              obtain ⟨rfl, rfl⟩ := Front.complete.inj h
              have hlt := ih hinner
              have hbyte := byte.toNat_lt
              rw [Nat.pow_succ]
              omega
            · exact absurd h (by simp)
            · exact absurd h (by simp)

theorem length_encodeInt_le {buffer : Bytes} {value used : Nat}
    (h : front intBytes buffer = .complete value used) :
    (encodeInt (Int32.ofNat value)).length ≤ used := by
  obtain ⟨hpositive, -, -⟩ := front_complete_bounds h
  have hlt := front_complete_lt h
  have hlow : (Int32.ofNat value).toUInt32.toNat ≤ value := by
    show (BitVec.ofNat 32 value).toNat ≤ value
    rw [BitVec.toNat_ofNat]
    exact Nat.mod_le _ _
  obtain ⟨count, rfl⟩ := Nat.exists_eq_succ_of_ne_zero (Nat.ne_of_gt hpositive)
  exact length_groups_le_of_lt intBytes (Nat.lt_of_le_of_lt hlow hlt)

/-- Bytes that arrive later change only the verdict that asks for more. -/
theorem front_append : ∀ {room : Nat} {buffer : Bytes} (more : Bytes),
    front room buffer ≠ .incomplete → front room (buffer ++ more) = front room buffer := by
  intro room
  induction room with
  | zero => intro buffer more _; simp [front]
  | succ room ih =>
      intro buffer more h
      cases buffer with
      | nil => exact absurd rfl h
      | cons byte rest =>
          rw [List.cons_append, front, front]
          split
          · rfl
          · rename_i hbyte
            have hrest : front room rest ≠ .incomplete := by
              intro hinner
              exact h (by rw [front, if_neg hbyte, hinner])
            rw [ih more hrest]

/-- How a 32-bit number stands at the front of a buffer: the bytes it takes are there, and are at
most five. -/
theorem peekInt_some_bounds {buffer : Bytes} {value : Int32} {used : Nat}
    (h : peekInt buffer = .ok (some (value, used))) :
    0 < used ∧ used ≤ intBytes ∧ used ≤ buffer.length := by
  rw [peekInt] at h
  split at h
  · rename_i number count hfront
    simp only [Except.ok.injEq, Option.some.injEq, Prod.mk.injEq] at h
    obtain ⟨-, rfl⟩ := h
    exact front_complete_bounds hfront
  · exact absurd h (by simp)
  · exact absurd h (by simp)

theorem peekInt_none_length {buffer : Bytes} (h : peekInt buffer = .ok none) :
    buffer.length < intBytes := by
  rw [peekInt] at h
  split at h
  · exact absurd h (by simp)
  · rename_i hfront
    exact front_incomplete_length hfront
  · exact absurd h (by simp)

theorem peekInt_append {buffer : Bytes} (more : Bytes) (h : peekInt buffer ≠ .ok none) :
    peekInt (buffer ++ more) = peekInt buffer := by
  have hfront : front intBytes buffer ≠ .incomplete := by
    intro hinner
    exact h (by rw [peekInt, hinner])
  rw [peekInt, peekInt, front_append more hfront]

/-! ## A number and what follows it -/

/-- Bytes that are one complete 32-bit number and nothing more. -/
def IsInt (head : Bytes) (value : Int32) : Prop :=
  peekInt head = .ok (some (value, head.length))

theorem isInt_encodeInt (value : Int32) : IsInt (encodeInt value) value := by
  have h := peekInt_encodeInt value []
  rwa [List.append_nil] at h

/-- The bytes that a number takes are all that was looked at to read it. -/
theorem front_take : ∀ {room : Nat} {buffer : Bytes} {value used : Nat},
    front room buffer = .complete value used →
      front room (buffer.take used) = .complete value used := by
  intro room
  induction room with
  | zero => intro buffer value used h; simp [front] at h
  | succ room ih =>
      intro buffer value used h
      cases buffer with
      | nil => simp [front] at h
      | cons byte rest =>
          rw [front] at h
          split at h
          · rename_i hbyte
            obtain ⟨rfl, rfl⟩ := Front.complete.inj h
            simp only [List.take_succ_cons, front, hbyte, if_true]
          · rename_i hbyte
            split at h
            · rename_i inner count hinner
              obtain ⟨rfl, rfl⟩ := Front.complete.inj h
              simp only [List.take_succ_cons, front, hbyte, if_false, ih hinner]
            · exact absurd h (by simp)
            · exact absurd h (by simp)

theorem peekInt_some_iff {buffer : Bytes} {value : Int32} {used : Nat} :
    peekInt buffer = .ok (some (value, used)) ↔
      ∃ head rest, buffer = head ++ rest ∧ head.length = used ∧ IsInt head value := by
  constructor
  · intro h
    obtain ⟨-, -, hused⟩ := peekInt_some_bounds h
    have hlength : (buffer.take used).length = used := List.length_take_of_le hused
    refine ⟨buffer.take used, buffer.drop used, (List.take_append_drop _ _).symm, hlength, ?_⟩
    rw [IsInt, hlength, ← h]
    rw [peekInt] at h
    split at h
    · rename_i number count hfront
      simp only [Except.ok.injEq, Option.some.injEq, Prod.mk.injEq] at h
      obtain ⟨-, rfl⟩ := h
      rw [peekInt, peekInt, front_take hfront, hfront]
    · exact absurd h (by simp)
    · exact absurd h (by simp)
  · rintro ⟨head, rest, rfl, rfl, hhead⟩
    rw [peekInt_append rest (by rw [hhead]; simp), hhead]

end PhaseWire.VarNum
