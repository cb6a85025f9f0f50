import PhaseWire.Proofs.Compression.Declared
import PhaseWire.Proofs.Field.Limit
import PhaseWire.Proofs.Frame

/-
# Where the number in front is the length

Frames, compressed bodies, texts and arrays stand behind a length, and all
of them write it as a number of 32 bits with a sign, of whatever size the
content is.  An `Announcer` is one of these writers, and it `IsTrue` of a
value if it writes nothing or the number in front is the length.

The number has the low bits of the length (`Cuts`).  It is the length up
to `2 ^ 31` and never from there on, where it is negative or too small.
So each writer is true of exactly the values that it refuses, announces
nothing of, or that are shorter; frames refuse some by their own limit, and
a limit below `2 ^ 31` keeps all of them true, bodies are refused only where
the library fails.  The readers of
frames and fields stay in step for exactly the same values: what they give
back has the length that they have read.
-/

namespace PhaseWire

structure Announcer (Value : Type) where
  write : Value → Except Fault Bytes
  /-- How long what the number announces is.  The zero in front of a body that was not compressed
  announces nothing. -/
  size? : Value → Option Nat

namespace Announcer

variable {Value : Type} {announcer : Announcer Value}

/-- The writer fails, or the number that is read from what it writes is the length of what it
announces. -/
def IsTrue (announcer : Announcer Value) (value : Value) : Prop :=
  ∀ out, announcer.write value = .ok out → ∀ size, announcer.size? value = some size →
    ∃ declared used, VarNum.peekInt out = .ok (some (declared, used)) ∧ declared.toInt = size

/-- The number in front is the low 32 bits of the length. -/
def Cuts (announcer : Announcer Value) : Prop :=
  ∀ value out size, announcer.write value = .ok out → announcer.size? value = some size →
    ∃ used, VarNum.peekInt out = .ok (some (Int32.ofNat size, used))

theorem toInt_ofNat_eq_iff {size : Nat} : (Int32.ofNat size).toInt = size ↔ size < 2 ^ 31 := by
  constructor
  · intro h
    have := (Int32.ofNat size).toInt_lt
    omega
  · exact Frame.toInt_ofNat_of_lt

/-- A number that is cut is the length of nothing but what is short. -/
theorem Cuts.isTrue_iff (h : announcer.Cuts) (value : Value) :
    announcer.IsTrue value ↔
      ∀ out, announcer.write value = .ok out →
        ∀ size, announcer.size? value = some size → size < 2 ^ 31 := by
  constructor
  · intro htrue out hout size hsize
    obtain ⟨declared, used, hpeek, hdeclared⟩ := htrue out hout size hsize
    obtain ⟨other, hcut⟩ := h value out size hout hsize
    rw [hpeek] at hcut
    simp only [Except.ok.injEq, Option.some.injEq, Prod.mk.injEq] at hcut
    obtain ⟨rfl, -⟩ := hcut
    exact toInt_ofNat_eq_iff.mp hdeclared
  · intro hshort out hout size hsize
    obtain ⟨used, hcut⟩ := h value out size hout hsize
    exact ⟨_, used, hcut, toInt_ofNat_eq_iff.mpr (hshort out hout size hsize)⟩

/-! ## The four writers -/

def frames (maxBody : Nat) : Announcer Bytes where
  write := Frame.encode maxBody
  size? body := some body.length

/-- Compressed bodies announce how long they were; the second answer says whether one was
compressed. -/
def bodies (compressor : Compressor) : Announcer Bytes where
  write body := (compressor.encode body).map Prod.fst
  size? body :=
    match compressor.encode body with
    | .ok (_, true) => some body.length
    | _ => none

/-- Texts and arrays, which are written whatever their length is. -/
def fields (kind : Delimited Value) : Announcer Value where
  write value := .ok (kind.write value)
  size? value := some (kind.content value).length

theorem frames_write (maxBody : Nat) : (frames maxBody).write = Frame.encode maxBody := rfl

theorem frames_cuts (maxBody : Nat) : (frames maxBody).Cuts := by
  intro body out size hout hsize
  cases hsize
  rw [frames_write, Frame.encode_eq_announce, Frame.announce] at hout
  split at hout
  · cases hout
  · cases hout
    exact ⟨_, VarNum.peekInt_encodeInt _ body⟩

theorem bodies_write_cases {compressor : Compressor} {body out : Bytes}
    (h : (bodies compressor).write body = .ok out) :
    compressor.applies body ∧ (bodies compressor).size? body = some body.length
        ∧ (∃ data, compressor.compress body = .ok data
          ∧ out = VarNum.encodeInt (Int32.ofNat body.length) ++ data)
      ∨ ¬ compressor.applies body ∧ (bodies compressor).size? body = none := by
  simp only [bodies] at h ⊢
  cases hencode : compressor.encode body with
  | error fault =>
    rw [hencode] at h
    cases h
  | ok outcome =>
    rw [hencode] at h
    obtain ⟨frame, compressed⟩ := outcome
    cases h
    rcases Compressor.encode_cases hencode with ⟨happlies, rfl, hdata⟩ | ⟨hplain, rfl, -⟩
    · exact .inl ⟨happlies, rfl, hdata⟩
    · exact .inr ⟨hplain, rfl⟩

theorem bodies_cuts (compressor : Compressor) : (bodies compressor).Cuts := by
  intro body out size hout hsize
  rcases bodies_write_cases hout with ⟨-, hannounced, data, -, rfl⟩ | ⟨-, hnothing⟩
  · obtain rfl : body.length = size := Option.some.inj (hannounced.symm.trans hsize)
    exact ⟨_, VarNum.peekInt_encodeInt _ _⟩
  · cases hnothing.symm.trans hsize

theorem fields_cuts {kind : Delimited Value}
    (hwrite : ∀ value,
      kind.write value = Field.length (kind.content value).length ++ kind.content value) :
    (fields kind).Cuts := by
  intro value out size hout hsize
  cases hout
  cases hsize
  rw [hwrite]
  exact ⟨_, VarNum.peekInt_encodeInt _ _⟩

theorem frames_isTrue_iff (maxBody : Nat) (body : Bytes) :
    (frames maxBody).IsTrue body ↔ body.length < 2 ^ 31 ∨ maxBody < body.length := by
  rw [(frames_cuts maxBody).isTrue_iff]
  constructor
  · intro h
    rcases Nat.lt_or_ge maxBody body.length with hlong | hfits
    · exact .inr hlong
    · exact .inl (h _ (if_neg (Nat.not_lt.mpr hfits)) _ rfl)
  · rintro (hshort | hlong) out hout size hsize
    · cases hsize
      exact hshort
    · rw [frames_write, Frame.encode, if_pos hlong] at hout
      cases hout

theorem bodies_isTrue_iff (compressor : Compressor) (body : Bytes) :
    (bodies compressor).IsTrue body ↔ body.length < 2 ^ 31 ∨ ¬ compressor.applies body
      ∨ compressor.compress body = .error .compression := by
  rw [(bodies_cuts compressor).isTrue_iff]
  constructor
  · intro h
    by_cases happlies : compressor.applies body
    · cases hcompress : compressor.compress body with
      | error fault =>
        rw [Method.compress_error hcompress]
        exact .inr (.inr rfl)
      | ok data =>
        have hencode : compressor.encode body
            = .ok (VarNum.encodeInt (Int32.ofNat body.length) ++ data, true) := by
          rw [Compressor.encode, if_pos happlies, hcompress]
        refine .inl (h _ (congrArg (Except.map Prod.fst) hencode) _ ?_)
        simp only [bodies, hencode]
    · exact .inr (.inl happlies)
  · rintro hwhen out hout size hsize
    rcases bodies_write_cases hout with ⟨happlies, hannounced, data, hdata, -⟩ | ⟨-, hnothing⟩
    · obtain rfl : body.length = size := Option.some.inj (hannounced.symm.trans hsize)
      rcases hwhen with hshort | hplain | hfails
      · exact hshort
      · exact absurd happlies hplain
      · cases hdata.symm.trans hfails
    · cases hnothing.symm.trans hsize

theorem fields_isTrue_iff {kind : Delimited Value} (hcuts : (fields kind).Cuts) (value : Value) :
    (fields kind).IsTrue value ↔ (kind.content value).length < 2 ^ 31 := by
  rw [hcuts.isTrue_iff]
  constructor
  · intro h
    exact h _ rfl _ rfl
  · intro hshort out _ size hsize
    cases hsize
    exact hshort

/-! ## The readers -/

theorem decode_frame_iff {maxBody : Nat} {body frame : Bytes} (rest : Bytes)
    (hframe : Frame.encode maxBody body = .ok frame) :
    Frame.decode maxBody (frame ++ rest) = .ok (some (body, rest)) ↔ body.length < 2 ^ 31 := by
  constructor
  · intro h
    obtain ⟨length, used, -, -, -, -, hsplit⟩ := Frame.decode_some_iff.mp h
    have hlength := length.toInt_lt
    rw [List.splitAt_eq] at hsplit
    have hbody := congrArg (fun halves => halves.1.length) hsplit
    simp only [List.length_take] at hbody
    omega
  · intro hshort
    exact Frame.decode_encode_of_lt hshort hframe rest

theorem read_field_iff {kind : Delimited Value} {max : Nat} (hlimited : kind.IsLimited max)
    {value : Value} (rest : Bytes) (hsize : kind.size value ≤ max) :
    (kind.read max).onBuffer (kind.write value ++ rest) = (.ok value, rest)
      ↔ (kind.content value).length < 2 ^ 31 := by
  constructor
  · intro h
    obtain ⟨head, hspells, -, -⟩ := (hlimited.read_eq_ok_iff _ _ _).mp h
    have hvalue := hspells.value_eq
    have hlt := Int.bmod_lt (x := VarNum.weight head) (m := 2 ^ 32) (by decide)
    omega
  · intro hshort
    exact hlimited.accepts value rest hshort hsize

/-- The number in front is the length exactly up to `2 ^ 31`, unless the value is refused or nothing
is announced; and up to there, and no further, a reader goes on behind what was written. -/
theorem lengths_true_iff (maxBody max : Nat) (compressor : Compressor) (body array rest : Bytes)
    (text : String) :
    ((frames maxBody).IsTrue body ↔ body.length < 2 ^ 31 ∨ maxBody < body.length)
      ∧ ((bodies compressor).IsTrue body ↔ body.length < 2 ^ 31 ∨ ¬ compressor.applies body
        ∨ compressor.compress body = .error .compression)
      ∧ ((fields .texts).IsTrue text ↔ (Bytes.ofText text).length < 2 ^ 31)
      ∧ ((fields .arrays).IsTrue array ↔ array.length < 2 ^ 31)
      ∧ (∀ frame, Frame.encode maxBody body = .ok frame →
        (Frame.decode maxBody (frame ++ rest) = .ok (some (body, rest)) ↔ body.length < 2 ^ 31))
      ∧ (text.length ≤ max →
        ((Reader.text max).onBuffer (Field.text text ++ rest) = (.ok text, rest)
          ↔ (Bytes.ofText text).length < 2 ^ 31))
      ∧ (array.length ≤ max →
        ((Reader.array max).onBuffer (Field.array array ++ rest) = (.ok array, rest)
          ↔ array.length < 2 ^ 31)) := by
  have htexts : (fields .texts).Cuts := fields_cuts fun _ => rfl
  have harrays : (fields .arrays).Cuts := fields_cuts fun _ => rfl
  refine ⟨frames_isTrue_iff maxBody body, bodies_isTrue_iff compressor body,
    fields_isTrue_iff htexts text, fields_isTrue_iff harrays array, ?_, ?_, ?_⟩
  · intro frame hframe
    exact decode_frame_iff rest hframe
  · intro hsize
    exact read_field_iff (Delimited.texts_isLimited max) rest hsize
  · intro hsize
    exact read_field_iff (Delimited.arrays_isLimited max) rest hsize

/-- A frame that may be long enough is written with a length that is not its own. -/
theorem not_isTrue_long_frame : ¬ (frames (2 ^ 31)).IsTrue (List.replicate (2 ^ 31) 0) := by
  rw [frames_isTrue_iff, List.length_replicate]
  exact fun h => h.elim (Nat.lt_irrefl _) (Nat.lt_irrefl _)

end Announcer
end PhaseWire
