import PhaseWire.Frame
import PhaseWire.Proofs.VarNum

/-
# Frames on a stream

A frame that was written is taken off again whatever follows it
(`decode_encode`).  What `decode` says of a buffer it still says when more
bytes arrive, unless it asked for more (`decode_append_some`,
`decode_append_error`); and when it asks for more, the buffer is short.
-/

namespace PhaseWire.Frame

theorem toInt_ofNat_of_lt {n : Nat} (h : n < 2 ^ 31) : (Int32.ofNat n).toInt = n :=
  Int32.toInt_ofNat_of_lt h

theorem not_neg_ofNat {n : Nat} (h : n < 2 ^ 31) : ¬ Int32.ofNat n < 0 := by
  rw [Int32.lt_iff_toInt_lt, toInt_ofNat_of_lt h, Int32.toInt_zero]
  omega

theorem decode_encode_of_lt {maxBody : Nat} {body frame : Bytes} (hbody : body.length < 2 ^ 31)
    (h : encode maxBody body = .ok frame) (rest : Bytes) :
    decode maxBody (frame ++ rest) = .ok (some (body, rest)) := by
  rw [encode] at h
  split at h
  · exact absurd h (by simp)
  · rename_i hfits
    obtain rfl := Except.ok.inj h
    have hsize : (Int32.ofNat body.length).toInt.toNat = body.length := by
      rw [toInt_ofNat_of_lt hbody]
      rfl
    have hthere : ¬ (VarNum.encodeInt (Int32.ofNat body.length) ++ (body ++ rest)).length
        < (VarNum.encodeInt (Int32.ofNat body.length)).length + body.length := by
      simp only [List.length_append]
      omega
    rw [decode, List.append_assoc, VarNum.peekInt_encodeInt]
    simp only [hsize, not_neg_ofNat hbody, hfits, hthere, if_false, List.drop_left,
      List.splitAt_eq, List.take_left]

theorem length_le_of_encode {maxBody : Nat} {body frame : Bytes}
    (h : encode maxBody body = .ok frame) : body.length ≤ maxBody := by
  rw [encode] at h
  split at h
  · cases h
  · omega

/-- A frame that was written is taken off the front of any buffer. -/
theorem decode_encode {maxBody : Nat} {body frame : Bytes} (hmax : maxBody < 2 ^ 31)
    (h : encode maxBody body = .ok frame) (rest : Bytes) :
    decode maxBody (frame ++ rest) = .ok (some (body, rest)) :=
  decode_encode_of_lt (Nat.lt_of_le_of_lt (length_le_of_encode h) hmax) h rest

/-! ## Buffers that grow -/

theorem decode_some_iff {maxBody : Nat} {buffer body rest : Bytes} :
    decode maxBody buffer = .ok (some (body, rest)) ↔
      ∃ length used, VarNum.peekInt buffer = .ok (some (length, used)) ∧ ¬ length < 0
        ∧ ¬ maxBody < length.toInt.toNat ∧ ¬ buffer.length < used + length.toInt.toNat
        ∧ (buffer.drop used).splitAt length.toInt.toNat = (body, rest) := by
  constructor
  · intro h
    simp only [decode] at h
    split at h
    · exact absurd h (by simp)
    · exact absurd h (by simp)
    · rename_i length used hpeek
      split at h
      · exact absurd h (by simp)
      · rename_i hneg
        split at h
        · exact absurd h (by simp)
        · rename_i hmax
          split at h
          · exact absurd h (by simp)
          · rename_i hthere
            simp only [Except.ok.injEq, Option.some.injEq] at h
            exact ⟨length, used, hpeek, hneg, hmax, hthere, h⟩
  · rintro ⟨length, used, hpeek, hneg, hmax, hthere, hsplit⟩
    rw [decode, hpeek]
    simp only [hneg, hmax, hthere, hsplit, if_false]

theorem decode_some_length {maxBody : Nat} {buffer body rest : Bytes}
    (h : decode maxBody buffer = .ok (some (body, rest))) :
    rest.length + body.length < buffer.length := by
  obtain ⟨length, used, hpeek, -, -, hthere, hsplit⟩ := decode_some_iff.1 h
  obtain ⟨hused, -, -⟩ := VarNum.peekInt_some_bounds hpeek
  rw [List.splitAt_eq] at hsplit
  obtain ⟨rfl, rfl⟩ := Prod.mk.inj hsplit
  simp only [List.length_take, List.length_drop]
  omega

/-- A frame that is there stays the first one, and what arrives comes behind the rest. -/
theorem decode_append_some {maxBody : Nat} {buffer body rest : Bytes} (more : Bytes)
    (h : decode maxBody buffer = .ok (some (body, rest))) :
    decode maxBody (buffer ++ more) = .ok (some (body, rest ++ more)) := by
  obtain ⟨length, used, hpeek, hneg, hmax, hthere, hsplit⟩ := decode_some_iff.1 h
  rw [List.splitAt_eq] at hsplit
  obtain ⟨rfl, rfl⟩ := Prod.mk.inj hsplit
  refine decode_some_iff.2 ⟨length, used, ?_, hneg, hmax, ?_, ?_⟩
  · rw [VarNum.peekInt_append more (by rw [hpeek]; simp), hpeek]
  · rw [List.length_append]
    omega
  · have hused : used ≤ buffer.length := by omega
    have hsize : length.toInt.toNat ≤ (buffer.drop used).length := by
      rw [List.length_drop]
      omega
    rw [List.splitAt_eq, List.drop_append_of_le_length hused,
      List.take_append_of_le_length hsize, List.drop_append_of_le_length hsize]

theorem decode_append_error {maxBody : Nat} {buffer : Bytes} {fault : Fault} (more : Bytes)
    (h : decode maxBody buffer = .error fault) :
    decode maxBody (buffer ++ more) = .error fault := by
  have hpeek : VarNum.peekInt buffer ≠ .ok none := by
    intro hnone
    rw [decode, hnone] at h
    exact absurd h (by simp)
  simp only [decode] at h ⊢
  rw [VarNum.peekInt_append more hpeek]
  split at h
  · exact h
  · exact absurd h (by simp)
  · split at h
    · rename_i hneg
      simpa only [hneg, if_true] using h
    · rename_i hneg
      split at h
      · rename_i hmax
        simpa only [hneg, hmax, if_false, if_true] using h
      · split at h
        · exact absurd h (by simp)
        · exact absurd h (by simp)

/-- A buffer that is not refused and has no whole frame is shorter than the longest frame. -/
theorem decode_none_length {maxBody : Nat} {buffer : Bytes} (h : decode maxBody buffer = .ok none) :
    buffer.length < VarNum.intBytes + maxBody := by
  simp only [decode] at h
  split at h
  · exact absurd h (by simp)
  · rename_i hpeek
    have := VarNum.peekInt_none_length hpeek
    omega
  · rename_i length used hpeek
    obtain ⟨-, hused, -⟩ := VarNum.peekInt_some_bounds hpeek
    split at h
    · exact absurd h (by simp)
    · split at h
      · exact absurd h (by simp)
      · split at h
        · omega
        · exact absurd h (by simp)

theorem decode_nil (maxBody : Nat) : decode maxBody [] = .ok none := rfl

end PhaseWire.Frame
