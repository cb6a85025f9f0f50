import PhaseWire.Compression.Match
import PhaseWire.Compression.Run

/-
# Tokens spell their data

`Spelled reach tokens out` says that the tokens, followed from the first
on, give `out`, and that each copy is one that `reach` allows and starts
inside of what is there.  The tokens that are found for some data spell
it (`spelled_ofBytes`): a copy is as long as the bytes at its two places
agree (`agreementFrom_agrees`), and copying bytes that agree goes on with
the data (`copyBack_extract`), also where the copy overlaps itself.
-/

namespace PhaseWire.Compression

/-! ## Copies -/

@[simp] theorem size_copyBack (distance : Nat) : ∀ (count : Nat) (out : Array UInt8),
    (copyBack out distance count).size = out.size + count := by
  intro count
  induction count with
  | zero => intro out; rfl
  | succ count ih =>
      intro out
      rw [copyBack, ih, Array.size_push]
      omega

/-- The data has the same byte at two places, and so on for `count` bytes. -/
def Agree (data : Array UInt8) (left right count : Nat) : Prop :=
  ∀ i < count, ∃ byte, data[left + i]? = some byte ∧ data[right + i]? = some byte

theorem Agree.tail {data : Array UInt8} {left right count : Nat}
    (h : Agree data left right (count + 1)) : Agree data (left + 1) (right + 1) count := by
  intro i hi
  rw [Nat.add_right_comm left, Nat.add_right_comm right]
  exact h (i + 1) (Nat.succ_lt_succ hi)

theorem Agree.le_size {data : Array UInt8} {left right count : Nat}
    (h : Agree data left right count) (hright : right ≤ data.size) :
    right + count ≤ data.size := by
  cases count with
  | zero => exact hright
  | succ count =>
      obtain ⟨byte, -, hbyte⟩ := h count (Nat.lt_succ_self count)
      obtain ⟨hlt, -⟩ := Array.getElem?_eq_some_iff.1 hbyte
      exact hlt

/-- Copying bytes that agree goes on with the data. -/
theorem copyBack_extract {data : Array UInt8} : ∀ (count left right : Nat), left < right →
    Agree data left right count →
      copyBack (data.extract 0 right) (right - left) count = data.extract 0 (right + count) := by
  intro count
  induction count with
  | zero => intro left right _ _; rfl
  | succ count ih =>
      intro left right hless h
      obtain ⟨byte, hleft, hright⟩ := h 0 (Nat.succ_pos count)
      obtain ⟨hlt, hbyte⟩ := Array.getElem?_eq_some_iff.1 hright
      simp only [Nat.add_zero] at hleft hlt hbyte
      have hsize : (data.extract 0 right).size = right := by
        rw [Array.size_extract]
        omega
      have hback : byteBack (data.extract 0 right) (right - left) = byte := by
        rw [byteBack, hsize, if_neg (by omega), Array.getD_eq_getD_getElem?,
          Array.getElem?_extract, if_pos (by omega),
          show 0 + (right - (right - left)) = left by omega, hleft]
        rfl
      have hrest := ih (left + 1) (right + 1) (Nat.succ_lt_succ hless) h.tail
      rw [Nat.add_sub_add_right, Nat.add_right_comm] at hrest
      rw [copyBack, hback, ← hbyte, ← Array.extract_succ_right (Nat.succ_pos right) hlt, hrest]
      rfl

/-! ## Agreement -/

theorem agreementFrom_agrees (data : Array UInt8) : ∀ (room left right done : Nat),
    ∃ count ≤ room, Token.agreementFrom data room left right done = done + count
      ∧ Agree data left right count := by
  intro room
  induction room with
  | zero =>
      intro left right done
      exact ⟨0, Nat.le_refl 0, rfl, fun i hi => absurd hi (Nat.not_lt_zero i)⟩
  | succ room ih =>
      intro left right done
      have hnone : ∃ count ≤ room + 1, done = done + count ∧ Agree data left right count :=
        ⟨0, Nat.zero_le _, rfl, fun i hi => absurd hi (Nat.not_lt_zero i)⟩
      rw [Token.agreementFrom]
      split
      · rename_i a b hleft hright
        split
        · rename_i hsame
          obtain ⟨count, hroom, heq, hagree⟩ := ih (left + 1) (right + 1) (done + 1)
          refine ⟨count + 1, Nat.succ_le_succ hroom, by omega, fun i hi => ?_⟩
          cases i with
          | zero => exact ⟨a, hleft, hsame ▸ hright⟩
          | succ i =>
              obtain ⟨byte, hl, hr⟩ := hagree i (Nat.lt_of_succ_lt_succ hi)
              rw [Nat.add_right_comm] at hl hr
              exact ⟨byte, hl, hr⟩
        · exact hnone
      · exact hnone

theorem copyLength_agrees {reach : Reach} {data : Array UInt8} {earlier place : Nat}
    (h : 0 < Token.copyLength reach data (some earlier) place) :
    earlier < place ∧ place - earlier ≤ reach.maxDistance
      ∧ Token.copyLength reach data (some earlier) place ≤ reach.maxLength
      ∧ Agree data earlier place (Token.copyLength reach data (some earlier) place) := by
  simp only [Token.copyLength] at h ⊢
  split at h
  · rename_i hreach
    rw [if_pos hreach]
    obtain ⟨count, hroom, heq, hagree⟩ := agreementFrom_agrees data reach.maxLength earlier place 0
    rw [Nat.zero_add] at heq
    rw [Token.agreement, heq]
    exact ⟨hreach.2, hreach.1, hroom, hagree⟩
  · exact absurd h (Nat.lt_irrefl 0)

/-! ## Spelling -/

/-- The tokens give these bytes, and every copy is one that `reach` allows. -/
inductive Spelled (reach : Reach) : List Token → Array UInt8 → Prop
  | nil : Spelled reach [] #[]
  | literal {tokens : List Token} {out : Array UInt8} (byte : UInt8) :
      Spelled reach tokens out → Spelled reach (tokens ++ [.literal byte]) (out.push byte)
  | copy {tokens : List Token} {out : Array UInt8} {distance length : Nat} :
      Spelled reach tokens out → 0 < distance → distance ≤ out.size →
      distance ≤ reach.maxDistance → reach.minLength ≤ length → length ≤ reach.maxLength →
      Spelled reach (tokens ++ [.copy distance length]) (copyBack out distance length)

/-- Tokens that spell the data up to a place are continued to tokens that spell it all. -/
theorem spelled_spell {reach : Reach} {data : Array UInt8} :
    ∀ (fuel place : Nat) (table : Array (Option Nat)) (done : Array Token),
      data.size ≤ place + fuel → place ≤ data.size →
      Spelled reach done.toList (data.extract 0 place) →
      Spelled reach (Token.spell reach data fuel place table done).toList data := by
  intro fuel
  induction fuel with
  | zero =>
      intro place table done hfuel hplace h
      obtain rfl : place = data.size := by omega
      rw [Array.extract_size] at h
      exact h
  | succ fuel ih =>
      intro place table done hfuel hplace h
      simp only [Token.spell]
      split
      · rename_i hend
        obtain rfl : place = data.size := by
          have := Array.getElem?_eq_none_iff.1 hend
          omega
        rw [Array.extract_size] at h
        exact h
      · rename_i byte hbyte
        obtain ⟨hlt, hget⟩ := Array.getElem?_eq_some_iff.1 hbyte
        generalize (table.getD (Token.bucket data place) none).getD place = earlier
        split
        · rename_i hcopy
          obtain ⟨hmin, hlength⟩ := hcopy
          obtain ⟨hearlier, hdistance, hmax, hagree⟩ := copyLength_agrees hlength
          refine ih _ _ _ (by omega) (hagree.le_size hplace) ?_
          rw [Array.toList_push, ← copyBack_extract _ earlier place hearlier hagree]
          refine .copy h (by omega) ?_ hdistance hmin hmax
          rw [Array.size_extract]
          omega
        · refine ih (place + 1) _ _ (by omega) hlt ?_
          rw [Array.toList_push, Array.extract_succ_right (Nat.succ_pos place) hlt, hget]
          exact .literal byte h

theorem spelled_ofBytes (reach : Reach) (data : Bytes) :
    Spelled reach (Token.ofBytes reach data).toList data.toArray :=
  spelled_spell data.toArray.size 0 _ #[] (by omega) (Nat.zero_le _) (by
    rw [Array.extract_zero]
    exact .nil)

end PhaseWire.Compression
