import PhaseWire.Compression.Stage
import PhaseWire.Proofs.Frame

/-
# Bodies behind their uncompressed length

A compressor reads what it has written (`decode_encode`), as long as the
body is one it would accept at all and its library is `Lossless`: what a
method compressed it gives back whole if the limit lets it.  That much the
formats promise; no more of a library enters here, so a stage can be
trusted with any library as far as that library can.
-/

namespace PhaseWire

/-- What a method compressed it gives back whole, if the limit lets it.  Only data whose length a
stage can declare counts. -/
def Library.Lossless (library : Library) (method : Method) (level : Int32) : Prop :=
  ∀ (data compressed : Bytes) (limit : Nat), data.length < 2 ^ 31 → data.length ≤ limit →
    method.compress library level data = .ok compressed →
      method.decompress limit compressed = .ok data

/-- Whatever keeps a library from compressing, it is told as one fault. -/
theorem Method.compress_error {library : Library} {method : Method} {level : Int32} {data : Bytes}
    {fault : Fault} (h : method.compress library level data = .error fault) :
    fault = .compression := by
  rw [compress.eq_def] at h
  dsimp only at h
  split at h
  · cases h
  · cases h
    rfl

namespace Compressor

variable {compressor : Compressor} {body frame : Bytes} {compressed : Bool}

theorem applies_iff : compressor.applies body ↔ body ≠ [] ∧ compressor.threshold ≤ body.length := by
  simp [applies]

theorem encode_plain (hplain : ¬ compressor.applies body) :
    compressor.encode body = .ok (0 :: body, false) :=
  if_neg hplain

/-- A body that is written stands behind its length in compressed form, or behind a zero as it
is. -/
theorem encode_cases (h : compressor.encode body = .ok (frame, compressed)) :
    compressor.applies body ∧ compressed = true
        ∧ (∃ data, compressor.compress body = .ok data
          ∧ frame = VarNum.encodeInt (Int32.ofNat body.length) ++ data)
      ∨ ¬ compressor.applies body ∧ compressed = false ∧ frame = VarNum.encodeInt 0 ++ body := by
  rw [encode] at h
  split at h
  · rename_i happlies
    split at h
    · cases h
    · rename_i data hdata
      cases h
      exact .inl ⟨happlies, rfl, data, hdata, rfl⟩
  · rename_i hplain
    cases h
    exact .inr ⟨hplain, rfl, rfl⟩

theorem encode_error_iff {fault : Fault} :
    compressor.encode body = .error fault
      ↔ compressor.applies body ∧ compressor.compress body = .error fault := by
  rw [encode]
  split
  · rename_i happlies
    split
    · rename_i found hfound
      rw [hfound, Except.error.injEq, Except.error.injEq]
      exact ⟨fun h => ⟨happlies, h⟩, And.right⟩
    · rename_i data hdata
      rw [hdata]
      exact ⟨nofun, nofun⟩
  · rename_i hplain
    exact ⟨nofun, fun h => absurd h.1 hplain⟩

theorem expand_compress (hlossless : compressor.library.Lossless compressor.method compressor.level)
    (hsize : body.length < 2 ^ 31) (hleast : compressor.threshold ≤ body.length)
    (hmost : body.length ≤ compressor.maxBody) {data : Bytes}
    (hdata : compressor.compress body = .ok data) :
    compressor.expand body.length data = .ok body := by
  rw [expand, hlossless body data body.length hsize (Nat.le_refl _) hdata]
  simp only [Nat.not_lt.2 hleast, Nat.not_lt.2 hmost, if_false, if_true]

/-- What stands in front of a compressed body sends the rest of the frame to be expanded. -/
theorem decode_compressed (happlies : compressor.applies body) (hsize : body.length < 2 ^ 31)
    (data : Bytes) :
    compressor.decode (VarNum.encodeInt (Int32.ofNat body.length) ++ data)
      = compressor.expand body.length data := by
  have hint := Frame.toInt_ofNat_of_lt hsize
  have hpositive := List.length_pos_iff.2 (applies_iff.1 happlies).1
  have hzero : Int32.ofNat body.length ≠ 0 := by
    intro h
    rw [h, Int32.toInt_zero] at hint
    omega
  have hdeclared : (Int32.ofNat body.length).toInt.toNat = body.length := by
    rw [hint]
    rfl
  simp only [decode, VarNum.peekInt_encodeInt, List.drop_left, hzero, Frame.not_neg_ofNat hsize,
    if_false, hdeclared]

theorem decode_plain (body : Bytes) :
    compressor.decode (VarNum.encodeInt 0 ++ body) = .ok body := by
  simp only [decode, VarNum.peekInt_encodeInt, List.drop_left, if_true]

theorem decode_encode (hlossless : compressor.library.Lossless compressor.method compressor.level)
    (hsize : body.length < 2 ^ 31) (hmost : body.length ≤ compressor.maxBody)
    (h : compressor.encode body = .ok (frame, compressed)) :
    compressor.decode frame = .ok body := by
  rcases encode_cases h with ⟨happlies, -, data, hdata, rfl⟩ | ⟨-, -, rfl⟩
  · rw [decode_compressed happlies hsize]
    exact expand_compress hlossless hsize (applies_iff.1 happlies).2 hmost hdata
  · exact decode_plain body

end Compressor
end PhaseWire
