import PhaseWire.Proofs.Compression.Stage
import PhaseWire.Proofs.Codec.Blame

/-
# The length in front of a body is the body's length

What a compressor writes and what it accepts are two sides of one relation,
`Carries`: a frame carries a body behind a zero as it is, or behind its
length in compressed form, and then the method has given back exactly so
many bytes under exactly that limit.  `decode_ok_iff` says that nothing
else is accepted.

What the method is asked is said with the method taken out (`decodeWith`):
another one that answers alike within the limits makes no difference
(`decodeWith_congr`), so nothing is ever asked outside of them.
-/

namespace PhaseWire

namespace Compressor

variable {compressor : Compressor} {body frame : Bytes} {compressed : Bool}

/-! ## Writing -/

theorem compressed_iff (h : compressor.encode body = .ok (frame, compressed)) :
    compressed = true ↔ body ≠ [] ∧ compressor.threshold ≤ body.length := by
  rw [← applies_iff]
  rcases encode_cases h with ⟨happlies, rfl, -⟩ | ⟨hplain, rfl, -⟩
  · exact iff_of_true rfl happlies
  · exact iff_of_false Bool.false_ne_true hplain

theorem encode_compressed (hsize : body.length < 2 ^ 31)
    (h : compressor.encode body = .ok (frame, true)) :
    ∃ head declared data, VarNum.IsInt head declared ∧ head = VarNum.encodeInt declared
      ∧ declared.toInt = body.length ∧ compressor.compress body = .ok data
      ∧ frame = head ++ data := by
  rcases encode_cases h with ⟨-, -, data, hdata, rfl⟩ | ⟨-, hfalse, -⟩
  · exact ⟨_, _, data, VarNum.isInt_encodeInt _, rfl, Frame.toInt_ofNat_of_lt hsize, hdata, rfl⟩
  · cases hfalse

theorem encode_uncompressed (h : compressor.encode body = .ok (frame, false)) :
    frame = 0 :: body := by
  rcases encode_cases h with ⟨-, htrue, -⟩ | ⟨-, -, rfl⟩
  · cases htrue
  · rfl

/-! ## Reading -/

/-- The limits under which the method may be asked. -/
def Admits (compressor : Compressor) (declared : Nat) : Prop :=
  max 1 compressor.threshold ≤ declared ∧ declared ≤ compressor.maxBody

/-- How a frame carries a body. -/
inductive Carries (compressor : Compressor) : (frame body : Bytes) → Prop
  /-- Behind a zero stands the body as it is. -/
  | plain {head body : Bytes} (hhead : VarNum.IsInt head 0) :
      Carries compressor (head ++ body) body
  /-- Behind its length stands what the method expands to it under that limit. -/
  | compressed {head data body : Bytes} {declared : Int32} (hhead : VarNum.IsInt head declared)
      (hlength : declared.toInt = body.length) (hadmits : compressor.Admits body.length)
      (hmethod : compressor.method.decompress body.length data = .ok body) :
      Carries compressor (head ++ data) body

theorem expand_ok_iff {declared : Nat} {data : Bytes} (hpositive : 0 < declared) :
    compressor.expand declared data = .ok body ↔
      compressor.Admits declared ∧ body.length = declared
        ∧ compressor.method.decompress declared data = .ok body := by
  constructor
  · intro h
    rw [expand] at h
    split at h
    · cases h
    · rename_i hleast
      split at h
      · cases h
      · rename_i hmost
        split at h
        · cases h
        · rename_i found hmethod
          split at h
          · rename_i hlength
            cases h
            exact ⟨⟨by omega, by omega⟩, hlength, hmethod⟩
          · cases h
  · rintro ⟨⟨hleast, hmost⟩, hlength, hmethod⟩
    rw [expand, if_neg (by omega), if_neg (by omega), hmethod]
    exact if_pos hlength

theorem declared_pos {declared : Int32} (hzero : declared ≠ 0) (hneg : ¬ declared < 0) :
    0 < declared.toInt := by
  rw [Int32.lt_iff_toInt_lt, Int32.toInt_zero] at hneg
  have hint : declared.toInt ≠ 0 := fun h => hzero (Int32.toInt_inj.1 (by rw [h, Int32.toInt_zero]))
  omega

/-- Nothing is accepted but a body that the frame carries, and every such body is. -/
theorem decode_ok_iff : compressor.decode frame = .ok body ↔ compressor.Carries frame body := by
  constructor
  · intro h
    rw [decode] at h
    split at h
    · cases h
    · cases h
    · rename_i declared used hpeek
      obtain ⟨head, rest, rfl, rfl, hhead⟩ := VarNum.peekInt_some_iff.1 hpeek
      simp only [List.drop_left] at h
      split at h
      · rename_i hzero
        subst hzero
        cases h
        exact .plain hhead
      · rename_i hzero
        split at h
        · cases h
        · rename_i hneg
          have hpositive := declared_pos hzero hneg
          obtain ⟨hadmits, hlength, hmethod⟩ := (expand_ok_iff (by omega)).1 h
          rw [← hlength] at hadmits hmethod
          exact .compressed hhead (by omega) hadmits hmethod
  · intro h
    cases h with
    | plain hhead =>
      have hpeek := VarNum.peekInt_some_iff.2 ⟨_, body, rfl, rfl, hhead⟩
      simp only [decode, hpeek, List.drop_left, if_true]
    | compressed hhead hlength hadmits hmethod =>
      rename_i head data declared
      have hpeek := VarNum.peekInt_some_iff.2 ⟨_, data, rfl, rfl, hhead⟩
      have hpositive : 0 < body.length := by
        have := hadmits.1
        omega
      have hzero : declared ≠ 0 := by
        rintro rfl
        rw [Int32.toInt_zero] at hlength
        omega
      have hneg : ¬ declared < 0 := by
        rw [Int32.lt_iff_toInt_lt, Int32.toInt_zero]
        omega
      have hdeclared : declared.toInt.toNat = body.length := by omega
      simp only [decode, hpeek, List.drop_left, hzero, hneg, if_false, hdeclared]
      exact (expand_ok_iff hpositive).2 ⟨hadmits, rfl, hmethod⟩

/-! ## What the method is asked -/

/-- `expand` with any way to decompress in the place of the method. -/
def expandWith (decompress : Nat → Bytes → Except Fault Bytes) (compressor : Compressor)
    (declared : Nat) (data : Bytes) : Except Fault Bytes :=
  if declared < compressor.threshold then .error (.belowThreshold declared compressor.threshold)
  else if compressor.maxBody < declared then .error (.tooLarge declared)
  else match decompress declared data with
    | .error fault => .error fault
    | .ok body =>
      if body.length = declared then .ok body else .error (.lengthMismatch declared body.length)

/-- `decode` with any way to decompress in the place of the method. -/
def decodeWith (decompress : Nat → Bytes → Except Fault Bytes) (compressor : Compressor)
    (frame : Bytes) : Except Fault Bytes :=
  match VarNum.peekInt frame with
  | .error fault => .error fault
  | .ok none => .error (.unexpectedEnd (frame.length + 1) frame.length)
  | .ok (some (declared, used)) =>
    let data := frame.drop used
    if declared = 0 then .ok data
    else if declared < 0 then .error (.negativeLength declared)
    else compressor.expandWith decompress declared.toInt.toNat data

theorem decode_eq_decodeWith :
    compressor.decode frame = compressor.decodeWith compressor.method.decompress frame :=
  rfl

theorem expandWith_congr {first second : Nat → Bytes → Except Fault Bytes} {declared : Nat}
    {data : Bytes} (hpositive : 0 < declared)
    (hagree : compressor.Admits declared → first declared data = second declared data) :
    compressor.expandWith first declared data = compressor.expandWith second declared data := by
  rw [expandWith, expandWith]
  split
  · rfl
  · split
    · rfl
    · rw [hagree ⟨by omega, by omega⟩]

/-- Two ways to decompress that agree on what stands behind the prefix, under the limits that are
admitted, decode alike: nothing else is asked of them. -/
theorem decodeWith_congr {first second : Nat → Bytes → Except Fault Bytes}
    (hagree : ∀ head data declared, frame = head ++ data → VarNum.IsInt head declared →
      compressor.Admits declared.toInt.toNat →
        first declared.toInt.toNat data = second declared.toInt.toNat data) :
    compressor.decodeWith first frame = compressor.decodeWith second frame := by
  rw [decodeWith, decodeWith]
  split
  · rfl
  · rfl
  · rename_i declared used hpeek
    obtain ⟨head, rest, rfl, rfl, hhead⟩ := VarNum.peekInt_some_iff.1 hpeek
    simp only [List.drop_left]
    split
    · rfl
    · rename_i hzero
      split
      · rfl
      · rename_i hneg
        have hpositive := declared_pos hzero hneg
        exact expandWith_congr (by omega) (hagree head rest declared rfl hhead)

/-- The length in front of a body is its length in both directions: a body of less than 2³¹ bytes
goes out compressed, behind its length, if it is not empty and reaches the threshold, and behind a
zero as it is otherwise, and only the library can keep it back; a frame is accepted for the body
that it `Carries` and for no other; the method is asked for nothing but the data behind the prefix,
under the length that the prefix declares and only if the limits admit it; and whatever is refused
is the peer's fault. -/
theorem declared_truthful (compressor : Compressor) :
    (∀ body : Bytes, body.length < 2 ^ 31 →
      ∀ frame compressed, compressor.encode body = .ok (frame, compressed) →
        (compressed = true ↔ body ≠ [] ∧ compressor.threshold ≤ body.length)
        ∧ (compressed = true → ∃ head declared data, VarNum.IsInt head declared
            ∧ head = VarNum.encodeInt declared ∧ declared.toInt = body.length
            ∧ compressor.compress body = .ok data ∧ frame = head ++ data)
        ∧ (compressed = false → frame = 0 :: body))
    ∧ (∀ body fault, compressor.encode body = .error fault ↔
        body ≠ [] ∧ compressor.threshold ≤ body.length
          ∧ compressor.compress body = .error fault)
    ∧ (∀ frame body, compressor.decode frame = .ok body ↔ compressor.Carries frame body)
    ∧ (∀ (frame : Bytes) (decompress : Nat → Bytes → Except Fault Bytes),
        (∀ head data declared, frame = head ++ data → VarNum.IsInt head declared →
          compressor.Admits declared.toInt.toNat →
            decompress declared.toInt.toNat data
              = compressor.method.decompress declared.toInt.toNat data) →
        compressor.decodeWith decompress frame = compressor.decode frame)
    ∧ ∀ frame fault, compressor.decode frame = .error fault → fault.byPeer = true := by
  refine ⟨fun body hsize frame compressed h => ⟨compressed_iff h, ?_, ?_⟩, ?_,
    fun frame body => decode_ok_iff, ?_, fun frame fault => byPeer_of_decode⟩
  · rintro rfl
    exact encode_compressed hsize h
  · rintro rfl
    exact encode_uncompressed h
  · intro body fault
    rw [encode_error_iff, applies_iff, and_assoc]
  · intro frame decompress hagree
    rw [decode_eq_decodeWith]
    exact decodeWith_congr hagree

/-- Five bytes with a threshold of four go out behind their length and are accepted behind it; a
method that has nothing to say beyond the cap reads them too, and a frame that breaks off inside
its prefix is the peer's fault. -/
theorem declared_truthful_five :
    let compressor : Compressor := ⟨4, .lz4, 0, 16, .standard⟩
    let body : Bytes := [7, 7, 7, 7, 7]
    let guarded := fun limit data =>
      if limit ≤ 16 then compressor.method.decompress limit data else .error .decompression
    (∃ frame head declared data, compressor.encode body = .ok (frame, true)
        ∧ VarNum.IsInt head declared ∧ head = VarNum.encodeInt declared
        ∧ declared.toInt = body.length ∧ compressor.compress body = .ok data
        ∧ frame = head ++ data)
    ∧ compressor.encode [7] = .ok ([0, 7], false)
    ∧ compressor.decode [5, 80, 7, 7, 7, 7, 7] = .ok body
    ∧ compressor.decodeWith guarded [5, 80, 7, 7, 7, 7, 7] = .ok body
    ∧ Fault.byPeer (.unexpectedEnd 2 1) = true := by
  intro compressor body guarded
  obtain ⟨hwrites, -, hreads, hasks, hblames⟩ := declared_truthful compressor
  have hlong : compressor.encode body = .ok ([5, 16, 7, 1, 0, 0], true) := by decide +kernel
  have hshort : compressor.encode [7] = .ok ([0, 7], false) := by decide +kernel
  obtain ⟨-, hcompressed, -⟩ := hwrites body (by decide) _ _ hlong
  obtain ⟨head, declared, data, hint, hhead, hlength, hdata, hframe⟩ := hcompressed rfl
  have hprefix : VarNum.IsInt [5] 5 := rfl
  have hin : compressor.decode [5, 80, 7, 7, 7, 7, 7] = .ok body :=
    (hreads _ _).2 (.compressed hprefix rfl ⟨by decide, by decide⟩ (by decide +kernel))
  refine ⟨⟨_, head, declared, data, hlong, hint, hhead, hlength, hdata, hframe⟩, hshort, hin, ?_,
    hblames [128] _ (by decide +kernel)⟩
  rw [← hin]
  refine hasks _ _ fun head data declared _ _ hadmits => ?_
  exact if_pos hadmits.2

end Compressor
end PhaseWire
