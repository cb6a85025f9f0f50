import PhaseWire.Compression.Lz4.Writer
import PhaseWire.Proofs.Compression.Match
import PhaseWire.Proofs.Compression.Stage

/-
# LZ4 gives back what it compressed

A sequence is read by one step (`step_sequence`), the last one ends the
reading (`step_last`).  So what was written for some tokens is read up to
the literals that still wait (`reads_tokens`), and the tokens of some data
spell it; hence the method is lossless.
-/

namespace PhaseWire.Compression.Lz4

/-! ## Lengths -/

theorem extend_replicate (rest : Bytes) {byte : UInt8} (h : byte ≠ 255) :
    ∀ (count length : Nat), extend length (List.replicate count 255 ++ byte :: rest)
      = some (length + 255 * count + byte.toNat, rest) := by
  intro count
  induction count with
  | zero =>
      intro length
      rw [List.replicate_zero, List.nil_append, extend, if_neg h]
      rfl
  | succ count ih =>
      intro length
      rw [List.replicate_succ, List.cons_append, extend, if_pos rfl, ih]
      congr 2
      omega

/-- A length is read from its half token and the bytes that continue it. -/
theorem takeLength_extension (length : Nat) (rest : Bytes) :
    takeLength (min length 15) (extension length ++ rest) = some (length, rest) := by
  rw [takeLength, extension]
  split
  · rename_i hfifteen
    rw [if_neg (by omega), List.append_assoc, List.singleton_append]
    have hbyte : ((length - 15) % 255).toUInt8.toNat = (length - 15) % 255 :=
      VarNum.toNat_toUInt8_of_lt (by omega)
    have hnot : ((length - 15) % 255).toUInt8 ≠ 255 := by
      intro h
      rw [h] at hbyte
      simp only [UInt8.reduceToNat] at hbyte
      omega
    rw [extend_replicate rest hnot, hbyte]
    congr 2
    omega
  · rename_i hless
    rw [if_pos (by omega), List.nil_append, Nat.min_eq_left (by omega)]

theorem toNat_tokenByte (literals copied : Nat) :
    (tokenByte literals copied).toNat = 16 * min literals 15 + min copied 15 :=
  VarNum.toNat_toUInt8_of_lt (by omega)

/-! ## Sequences -/

@[simp] theorem toList_appendBytes : ∀ (bytes : Bytes) (out : Array UInt8),
    (appendBytes out bytes).toList = out.toList ++ bytes := by
  intro bytes
  induction bytes with
  | nil => intro out; rw [List.append_nil]; rfl
  | cons byte bytes ih =>
      intro out
      rw [appendBytes, List.foldl_cons]
      refine (ih (out.push byte)).trans ?_
      rw [Array.toList_push, List.append_assoc, List.singleton_append]

def sequence (literals : Bytes) (distance length : Nat) : Bytes :=
  tokenByte literals.length (length - minCopy) :: (extension literals.length
    ++ (literals ++ (Bytes.toLittleEndian 2 distance ++ extension (length - minCopy))))

def lastSequence (literals : Bytes) : Bytes :=
  tokenByte literals.length 0 :: (extension literals.length ++ literals)

theorem toList_writeSequence (out literals : Array UInt8) (distance length : Nat) :
    (writeSequence out literals distance length).toList
      = out.toList ++ sequence literals.toList distance length := by
  simp [writeSequence, sequence]

theorem toList_writeLast (out literals : Array UInt8) :
    (writeLast out literals).toList = out.toList ++ lastSequence literals.toList := by
  simp [writeLast, lastSequence]

theorem toLittleEndian_distance {distance : Nat} (h : distance ≤ 65535) :
    ∃ low high : UInt8, Bytes.toLittleEndian 2 distance = [low, high]
      ∧ low.toNat + 256 * high.toNat = distance := by
  refine ⟨distance.toUInt8, (distance / 256).toUInt8, rfl, ?_⟩
  rw [Nat.toUInt8_eq, Nat.toUInt8_eq, UInt8.toNat_ofNat', UInt8.toNat_ofNat']
  omega

theorem appendBytes_toList (out literals : Array UInt8) :
    appendBytes out literals.toList = out ++ literals := by
  rw [← Array.toList_inj, toList_appendBytes, Array.toList_append]

/-! ## Reading what was written -/

variable {limit : Nat}

theorem step_literals {out : Array UInt8} {literals : Bytes} (copied : Nat) (rest : Bytes)
    (hlimit : out.size + literals.length ≤ limit) :
    step limit ⟨tokenByte literals.length copied
        :: (extension literals.length ++ (literals ++ rest)), out⟩
      = match rest with
        | [] => .finished ⟨[], appendBytes out literals⟩
        | rest => copyStep limit (min copied 15) rest (appendBytes out literals) := by
  have hhigh : (tokenByte literals.length copied).toNat / 16 = min literals.length 15 := by
    rw [toNat_tokenByte]
    omega
  have hlow : (tokenByte literals.length copied).toNat % 16 = min copied 15 := by
    rw [toNat_tokenByte]
    omega
  have hthere : ¬ ((literals ++ rest).length < literals.length
      ∨ limit < out.size + literals.length) := by
    rw [List.length_append]
    omega
  simp only [step, hhigh, hlow, takeLength_extension, hthere, if_false, List.take_left,
    List.drop_left]
  cases rest with
  | nil => rfl
  | cons byte rest => rfl

@[simp] theorem size_appendBytes (out : Array UInt8) (bytes : Bytes) :
    (appendBytes out bytes).size = out.size + bytes.length := by
  rw [← Array.length_toList, toList_appendBytes, List.length_append, Array.length_toList]

theorem step_sequence {out : Array UInt8} {literals : Bytes} {distance length : Nat} (rest : Bytes)
    (hpositive : 0 < distance) (hback : distance ≤ out.size + literals.length)
    (hreach : distance ≤ 65535) (hmin : minCopy ≤ length)
    (hlimit : out.size + literals.length + length ≤ limit) :
    step limit ⟨sequence literals distance length ++ rest, out⟩
      = .next ⟨rest, copyBack (appendBytes out literals) distance length⟩ := by
  obtain ⟨low, high, htwo, hdistance⟩ := toLittleEndian_distance hreach
  have hlength : length - minCopy + minCopy = length := Nat.sub_add_cancel hmin
  have hvalid : ¬ (distance = 0 ∨ (appendBytes out literals).size < distance
      ∨ limit < (appendBytes out literals).size + length) := by
    rw [size_appendBytes]
    omega
  rw [sequence, htwo]
  simp only [List.cons_append, List.append_assoc, List.nil_append]
  rw [step_literals _ _ (by omega)]
  simp only [copyStep, takeLength_extension, hdistance, hlength, hvalid, if_false]

theorem step_last {out : Array UInt8} {literals : Bytes}
    (hlimit : out.size + literals.length ≤ limit) :
    step limit ⟨lastSequence literals, out⟩ = .finished ⟨[], appendBytes out literals⟩ := by
  have h := step_literals 0 [] hlimit
  rwa [List.append_nil] at h

/-- Reading `written` from the start gives `base` and goes on behind it. -/
def Reads (limit : Nat) (written base : Array UInt8) : Prop :=
  ∀ (rest : Bytes) (fuel : Nat), written.size + rest.length < fuel →
    ∃ fuel', rest.length < fuel' ∧
      run (step limit) (fun _ => false) fuel ⟨written.toList ++ rest, #[]⟩
        = run (step limit) (fun _ => false) fuel' ⟨rest, base⟩

theorem Reads.sequence {written base literals : Array UInt8} {distance length : Nat}
    (h : Reads limit written base) (hpositive : 0 < distance)
    (hback : distance ≤ base.size + literals.size) (hreach : distance ≤ 65535)
    (hmin : minCopy ≤ length) (hlimit : base.size + literals.size + length ≤ limit) :
    Reads limit (writeSequence written literals distance length)
      (copyBack (base ++ literals) distance length) := by
  intro rest fuel hfuel
  have hsize : (writeSequence written literals distance length).size
      = written.size + (Lz4.sequence literals.toList distance length).length := by
    rw [← Array.length_toList, toList_writeSequence, List.length_append, Array.length_toList]
  rw [hsize] at hfuel
  obtain ⟨fuel', hless, hrun⟩ := h (Lz4.sequence literals.toList distance length ++ rest) fuel (by
    rw [List.length_append]
    omega)
  rw [List.length_append, Lz4.sequence, List.length_cons] at hless
  cases fuel' with
  | zero => exact absurd hless (Nat.not_lt_zero _)
  | succ fuel' =>
      refine ⟨fuel', by omega, ?_⟩
      rw [toList_writeSequence, List.append_assoc, hrun, run]
      simp only [Bool.false_eq_true, if_false]
      rw [step_sequence rest hpositive hback hreach hmin hlimit, appendBytes_toList]

/-- What was written for tokens that spell `out` is read up to the literals that wait. -/
theorem reads_tokens {tokens : List Token} {out : Array UInt8} (h : Spelled reach tokens out) :
    out.size ≤ limit → ∃ base, base ++ (tokens.foldl writeToken (#[], #[])).2 = out
      ∧ Reads limit (tokens.foldl writeToken (#[], #[])).1 base := by
  induction h with
  | nil =>
      intro _
      exact ⟨#[], rfl, fun rest fuel hfuel => ⟨fuel, by simpa using hfuel, rfl⟩⟩
  | literal byte _ ih =>
      intro hlimit
      obtain ⟨base, hbase, hreads⟩ := ih (by rw [Array.size_push] at hlimit; omega)
      rw [List.foldl_append]
      refine ⟨base, ?_, hreads⟩
      rw [← hbase, ← Array.append_push]
      rfl
  | copy _ hpositive hback hreach hmin _ ih =>
      intro hlimit
      rw [size_copyBack] at hlimit
      obtain ⟨base, hbase, hreads⟩ := ih (by omega)
      rw [← hbase, Array.size_append] at hback hlimit
      rw [List.foldl_append, ← hbase]
      exact ⟨_, Array.append_empty, hreads.sequence hpositive hback hreach hmin hlimit⟩

/-- Data that the limit admits is given back. -/
theorem decompress_compress {data : Bytes} (h : data.length ≤ limit) :
    decompress (compress data) limit = some data := by
  obtain ⟨base, hbase, hreads⟩ := reads_tokens (spelled_ofBytes reach data) h
  rw [Array.foldl_toList] at hbase hreads
  rw [decompress, compress]
  generalize (Token.ofBytes reach data).foldl writeToken (#[], #[]) = gathered at hbase hreads ⊢
  obtain ⟨written, literals⟩ := gathered
  simp only at hbase hreads ⊢
  rw [toList_writeLast]
  have hwritten : written.toList.length = written.size := rfl
  obtain ⟨fuel, hless, hrun⟩ := hreads (lastSequence literals.toList)
    ((written.toList ++ lastSequence literals.toList).length + 1) (by
      rw [List.length_append]
      omega)
  cases fuel with
  | zero => exact absurd hless (Nat.not_lt_zero _)
  | succ fuel =>
      have hsize : base.size + literals.toList.length = data.length := by
        rw [Array.length_toList, ← Array.size_append, hbase, List.size_toArray]
      rw [hrun, run]
      simp only [Bool.false_eq_true, if_false]
      rw [step_last (by omega), appendBytes_toList, hbase]

end PhaseWire.Compression.Lz4

namespace PhaseWire.Method

theorem lossless_lz4 (level : Int32) : Library.standard.Lossless .lz4 level := by
  intro data compressed limit _ hlimit hcompress
  cases hcompress
  rw [decompress]
  simp only [Library.standard, Compression.Lz4.decompress_compress hlimit]

end PhaseWire.Method
