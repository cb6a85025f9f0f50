import PhaseWire.Proofs.Compression.Lz4

/-
# What a compressor accepts of what it emits

To write a body, a compressor asks for its length only whether to compress
it.  To read one, it also asks whether the body is longer than it accepts.
So it emits bodies that it would refuse (`IsRefused`), and these are the
only ones: all others it reads back (`decode_own`).
-/

namespace PhaseWire.Compressor

variable {compressor : Compressor} {body frame : Bytes} {compressed : Bool}

/-- A body that a compressor compresses, though it is longer than the compressor accepts. -/
def IsRefused (compressor : Compressor) (body : Bytes) : Prop :=
  compressor.applies body ∧ compressor.maxBody < body.length

instance (compressor : Compressor) (body : Bytes) : Decidable (compressor.IsRefused body) :=
  inferInstanceAs (Decidable (_ ∧ _))

theorem expand_tooLarge {declared : Nat} (data : Bytes) (hleast : compressor.threshold ≤ declared)
    (hmost : compressor.maxBody < declared) :
    compressor.expand declared data = .error (.tooLarge declared) := by
  rw [expand, if_neg (Nat.not_lt.2 hleast), if_pos hmost]

/-- What was emitted in spite of the cap is not taken back. -/
theorem decode_refused (hrefused : compressor.IsRefused body) (hsize : body.length < 2 ^ 31)
    (h : compressor.encode body = .ok (frame, compressed)) :
    compressor.decode frame = .error (.tooLarge body.length) := by
  obtain ⟨happlies, hmost⟩ := hrefused
  rcases encode_cases h with ⟨-, -, data, -, rfl⟩ | ⟨hplain, -⟩
  · rw [decode_compressed happlies hsize, expand_tooLarge _ (applies_iff.1 happlies).2 hmost]
  · exact absurd happlies hplain

/-- A body that is not compressed is read back however long it is, and a compressed one if it is not
longer than the compressor accepts. -/
theorem decode_accepted (hlossless : compressor.library.Lossless compressor.method compressor.level)
    (hsize : body.length < 2 ^ 31) (haccepted : ¬ compressor.IsRefused body)
    (h : compressor.encode body = .ok (frame, compressed)) :
    compressor.decode frame = .ok body := by
  by_cases happlies : compressor.applies body
  · have hmost : body.length ≤ compressor.maxBody :=
      Nat.le_of_not_lt fun hmore => haccepted ⟨happlies, hmore⟩
    exact decode_encode hlossless hsize hmost h
  · rw [encode_plain happlies] at h
    cases h
    exact decode_plain body

/-- What a compressor makes of its own output, for any threshold, method, level, cap and library:
the body, or, if it has compressed a body above its cap, a fault that blames the peer.  There is an
output unless the library fails. -/
theorem decode_own (compressor : Compressor) (body : Bytes)
    (hlossless : compressor.library.Lossless compressor.method compressor.level)
    (hsize : body.length < 2 ^ 31) :
    (∀ frame compressed, compressor.encode body = .ok (frame, compressed) →
        (compressor.decode frame = .ok body ↔ ¬ compressor.IsRefused body)
          ∧ (compressor.IsRefused body →
            compressor.decode frame = .error (.tooLarge body.length)))
      ∧ ∀ fault, compressor.encode body = .error fault →
        compressor.compress body = .error fault := by
  refine ⟨fun frame compressed hencode => ?_, fun fault h => (encode_error_iff.1 h).2⟩
  have hrefused := fun h : compressor.IsRefused body => decode_refused h hsize hencode
  refine ⟨⟨fun hread h => ?_, fun haccepted => ?_⟩, hrefused⟩
  · rw [hrefused h] at hread
    cases hread
  · exact decode_accepted hlossless hsize haccepted hencode

/-- A body at the cap and one above it. -/
theorem decode_own_of_capped :
    let compressor : Compressor := ⟨4, .lz4, 0, 8, .standard⟩
    (∃ frame, compressor.encode (List.replicate 8 97) = .ok (frame, true)
        ∧ compressor.decode frame = .ok (List.replicate 8 97))
      ∧ ∃ frame, compressor.encode (List.replicate 9 97) = .ok (frame, true)
        ∧ compressor.decode frame = .error (.tooLarge 9) := by
  intro compressor
  have hlossless : compressor.library.Lossless compressor.method compressor.level :=
    Method.lossless_lz4 0
  obtain ⟨hat, -⟩ := decode_own compressor (List.replicate 8 97) hlossless (by decide)
  obtain ⟨habove, -⟩ := decode_own compressor (List.replicate 9 97) hlossless (by decide)
  exact ⟨⟨_, rfl, (hat _ true rfl).1.mpr (by decide)⟩, _, rfl, (habove _ true rfl).2 (by decide)⟩

/-- A body is emitted, compressed, and refused by the compressor that has emitted it. -/
theorem refused_own_output :
    let compressor : Compressor := ⟨16, .lz4, 6, 19, .standard⟩
    let body : Bytes := List.replicate 20 97
    ∃ frame, compressor.encode body = .ok (frame, true)
      ∧ compressor.decode frame = .error (.tooLarge 20) := by
  intro compressor body
  have hrefused : compressor.IsRefused body := by decide
  exact ⟨_, rfl, decode_refused hrefused (by decide) rfl⟩

end PhaseWire.Compressor
