import Mathlib.Algebra.BigOperators.Fin
import PhaseWire.Proofs.VarNum

/-
# What the front of a buffer spells

`VarNum.front` walks along a buffer.  What it finds is fixed by two
numbers that know of no walk: how many bytes at the front say that more
follow (`continued`), and what the low seven bits of the bytes weigh
together (`weight`).  `front_eq` says so for every buffer and every room.

The way back to what `groups` writes goes over the number of groups that a
number needs.  In that many bytes it is spelled in one way only
(`groups_of_front`); every longer spelling ends in empty groups.
-/

namespace PhaseWire.VarNum

/-! ## What is spelled -/

/-- How many bytes at the front of a buffer say that more follow. -/
def continued (buffer : Bytes) : Nat :=
  (buffer.takeWhile (128 ≤ ·)).length

/-- The sum of the low seven bits of the bytes, where the byte at index `i` counts `128 ^ i`
times. -/
def weight (bytes : Bytes) : Nat :=
  ∑ i : Fin bytes.length, bytes[i].toNat % 128 * 128 ^ (i : Nat)

theorem continued_of_last {byte : UInt8} (h : byte < 128) (rest : Bytes) :
    continued (byte :: rest) = 0 := by
  have hmore : ¬ 128 ≤ byte := UInt8.not_le.mpr h
  simp [continued, hmore]

theorem continued_of_more {byte : UInt8} (h : ¬ byte < 128) (rest : Bytes) :
    continued (byte :: rest) = continued rest + 1 := by
  have hmore : 128 ≤ byte := UInt8.not_lt.mp h
  simp [continued, hmore]

theorem weight_cons (byte : UInt8) (rest : Bytes) :
    weight (byte :: rest) = byte.toNat % 128 + 128 * weight rest := by
  have hrest : ∑ i : Fin rest.length, rest[i].toNat % 128 * 128 ^ ((i : Nat) + 1)
      = 128 * weight rest := by
    rw [weight, Finset.mul_sum]
    refine Finset.sum_congr rfl fun i _ => ?_
    rw [Nat.pow_succ', Nat.mul_left_comm]
  have hfirst : weight (byte :: rest) = byte.toNat % 128 * 128 ^ 0
      + ∑ i : Fin rest.length, rest[i].toNat % 128 * 128 ^ ((i : Nat) + 1) :=
    Fin.sum_univ_succ _
  rw [hfirst, hrest, Nat.pow_zero, Nat.mul_one]

/-- A walk along a buffer finds what the buffer spells. -/
theorem front_eq : ∀ (room : Nat) (buffer : Bytes), front room buffer =
    if continued buffer < room then
      if continued buffer < buffer.length then
        .complete (weight (buffer.take (continued buffer + 1))) (continued buffer + 1)
      else .incomplete
    else .overlong := by
  intro room
  induction room with
  | zero => intro buffer; rfl
  | succ room ih =>
      intro buffer
      cases buffer with
      | nil => rfl
      | cons byte rest =>
          by_cases hlast : byte < 128
          · have hbyte := (lt_128_iff byte).mp hlast
            have hweight : weight [byte] = byte.toNat := by
              rw [weight_cons, Nat.mod_eq_of_lt hbyte]
              rfl
            simp [front, continued_of_last hlast, hlast, hweight]
          · have hbyte := mt (lt_128_iff byte).mpr hlast
            have hlow : byte.toNat % 128 = byte.toNat - 128 := by
              have := byte.toNat_lt
              omega
            rw [front, if_neg hlast, ih, continued_of_more hlast, List.length_cons,
              List.take_succ_cons, weight_cons, hlow]
            by_cases hroom : continued rest < room
            · by_cases hthere : continued rest < rest.length
              · simp [hroom, hthere]
              · simp [hroom, hthere]
            · simp [hroom]

/-! ## How many groups a number needs -/

/-- A number fits into so many groups and not into fewer. -/
structure Needs (value count : Nat) : Prop where
  pos : 0 < count
  fits : value < 128 ^ count
  tight : ∀ fewer, 0 < fewer → fewer < count → 128 ^ fewer ≤ value

namespace Needs

variable {value count other : Nat}

theorem le_of_fits (h : Needs value count) (hpos : 0 < other) (hfits : value < 128 ^ other) :
    count ≤ other := by
  by_contra hmore
  exact Nat.not_lt.mpr (h.tight other hpos (Nat.not_le.mp hmore)) hfits

theorem unique (h : Needs value count) (hother : Needs value other) : count = other :=
  Nat.le_antisymm (h.le_of_fits hother.pos hother.fits) (hother.le_of_fits h.pos h.fits)

/-- A greater number does not need fewer groups. -/
theorem mono {greater : Nat} (h : Needs value count) (hother : Needs greater other)
    (hle : value ≤ greater) : count ≤ other :=
  h.le_of_fits hother.pos (Nat.lt_of_le_of_lt hle hother.fits)

theorem one (h : value < 128) : Needs value 1 where
  pos := Nat.one_pos
  fits := h
  tight fewer hpos hfewer := by omega

theorem of_bounds (hlow : 128 ^ count ≤ value) (hhigh : value < 128 ^ (count + 1)) :
    Needs value (count + 1) where
  pos := Nat.succ_pos count
  fits := hhigh
  tight fewer _ hfewer :=
    Nat.le_trans (Nat.pow_le_pow_right (by decide) (Nat.le_of_lt_succ hfewer)) hlow

/-- Behind its first group stands a number that needs one group less. -/
theorem succ_iff (hpos : 0 < count) :
    Needs value (count + 1) ↔ 128 ≤ value ∧ Needs (value / 128) count := by
  constructor
  · intro h
    refine ⟨h.tight 1 Nat.one_pos (Nat.succ_lt_succ hpos), hpos, ?_, ?_⟩
    · exact Nat.div_lt_of_lt_mul (by rw [← Nat.pow_succ']; exact h.fits)
    · intro fewer hfewer hless
      have htight := h.tight (fewer + 1) (Nat.succ_pos _) (Nat.succ_lt_succ hless)
      rwa [Nat.le_div_iff_mul_le (by decide), ← Nat.pow_succ]
  · rintro ⟨hlarge, h⟩
    refine ⟨Nat.succ_pos _, ?_, ?_⟩
    · rw [Nat.pow_succ]
      exact (Nat.div_lt_iff_lt_mul (by decide)).mp h.fits
    · intro fewer hfewer hless
      obtain ⟨fewer, rfl⟩ := Nat.exists_eq_succ_of_ne_zero hfewer.ne'
      rcases Nat.eq_zero_or_pos fewer with rfl | hrest
      · exact hlarge
      · have htight := h.tight fewer hrest (Nat.lt_of_succ_lt_succ hless)
        rwa [Nat.le_div_iff_mul_le (by decide), ← Nat.pow_succ] at htight

end Needs

theorem needs_groups : ∀ {room value : Nat}, value < 128 ^ (room + 1) →
    Needs value (groups (room + 1) value).length := by
  intro room
  induction room with
  | zero =>
      intro value h
      have hlast : value < 128 := by simpa using h
      rw [groups, if_pos hlast]
      exact .one hlast
  | succ room ih =>
      intro value h
      rw [groups]
      by_cases hlast : value < 128
      · rw [if_pos hlast]
        exact .one hlast
      · rw [if_neg hlast]
        have hrest : value / 128 < 128 ^ (room + 1) :=
          Nat.div_lt_of_lt_mul (by rwa [← Nat.pow_succ'])
        have hneeds := ih hrest
        exact (Needs.succ_iff hneeds.pos).mpr ⟨Nat.not_lt.mp hlast, hneeds⟩

/-! ## Spellings and what is written -/

/-- A number that is found in no more bytes than it needs is found as it is written. -/
theorem groups_of_front : ∀ {room : Nat} {buffer : Bytes} {value used : Nat},
    front room buffer = .complete value used → Needs value used →
      groups room value = buffer.take used := by
  intro room
  induction room with
  | zero => intro buffer value used h; simp [front] at h
  | succ room ih =>
      intro buffer value used h hneeds
      cases buffer with
      | nil => simp [front] at h
      | cons byte rest =>
          rw [front] at h
          split at h
          · rename_i hlast
            obtain ⟨rfl, rfl⟩ := Front.complete.inj h
            rw [groups, if_pos ((lt_128_iff byte).mp hlast)]
            simp
          · rename_i hmore
            have hbyte := mt (lt_128_iff byte).mpr hmore
            split at h
            · rename_i inner count hinner
              obtain ⟨rfl, rfl⟩ := Front.complete.inj h
              have hlt := byte.toNat_lt
              -- the first byte is the low group of the number, what is behind it the rest
              have hrest : (byte.toNat - 128 + 128 * inner) / 128 = inner := by omega
              have hlow : (byte.toNat - 128 + 128 * inner) % 128 + 128 = byte.toNat := by omega
              obtain ⟨hcount, -, -⟩ := front_complete_bounds hinner
              obtain ⟨hlarge, hneeds⟩ := (Needs.succ_iff hcount).mp hneeds
              rw [hrest] at hneeds
              rw [groups, if_neg (Nat.not_lt.mpr hlarge), hrest, hlow, ih hinner hneeds,
                List.take_succ_cons]
              simp
            · exact absurd h (by simp)
            · exact absurd h (by simp)

theorem front_complete_last : ∀ {room : Nat} {buffer : Bytes} {value used : Nat},
    front room buffer = .complete value (used + 1) →
      ∃ last, buffer[used]? = some last ∧ value < 128 ^ used * (last.toNat + 1) := by
  intro room
  induction room with
  | zero => intro buffer value used h; simp [front] at h
  | succ room ih =>
      intro buffer value used h
      cases buffer with
      | nil => simp [front] at h
      | cons byte rest =>
          rw [front] at h
          split at h
          · obtain ⟨rfl, hused⟩ := Front.complete.inj h
            obtain rfl : used = 0 := by omega
            exact ⟨byte, rfl, by omega⟩
          · split at h
            · rename_i inner count hinner
              obtain ⟨rfl, hused⟩ := Front.complete.inj h
              obtain rfl : count = used := by omega
              obtain ⟨hcount, -, -⟩ := front_complete_bounds hinner
              obtain ⟨used, rfl⟩ := Nat.exists_eq_succ_of_ne_zero hcount.ne'
              obtain ⟨last, hlast, hlt⟩ := ih hinner
              refine ⟨last, hlast, ?_⟩
              have hbyte := byte.toNat_lt
              rw [Nat.pow_succ', Nat.mul_assoc]
              omega
            · exact absurd h (by simp)
            · exact absurd h (by simp)

theorem front_part {room : Nat} {whole part : Bytes} {value : Nat}
    (h : front room whole = .complete value whole.length) (hpart : part <+: whole)
    (hless : part ≠ whole) : front room part = .incomplete := by
  obtain ⟨more, rfl⟩ := hpart
  -- any other verdict on the part would stand when the rest arrives
  by_contra hdone
  rw [front_append more hdone] at h
  obtain ⟨-, -, hlength⟩ := front_complete_bounds h
  have hmore : more = [] := by
    rw [List.length_append] at hlength
    exact List.length_eq_zero_iff.mp (by omega)
  exact hless (by rw [hmore, List.append_nil])

end PhaseWire.VarNum
