import PhaseWire.Cipher.Stream

/-
# The cipher as a byte stream

`Feedback.stream` walks over its data once and hands its register on, so
that cutting the data does not matter (`stream_append`).  Sealing and
opening feed the register the same byte, the one of the ciphertext; so an
opener that starts with the register of a sealer gives back what was
sealed and ends with the sealer's register (`stream_open_seal`).
-/

namespace PhaseWire

namespace Feedback

variable (step : Feedback → UInt8 → UInt8 × Feedback)

def gather (gathered : Array UInt8 × Feedback) (byte : UInt8) : Array UInt8 × Feedback :=
  (gathered.1.push (step gathered.2 byte).1, (step gathered.2 byte).2)

theorem stream_eq_gather (state : Feedback) (data : Bytes) :
    stream step state data
      = ((data.foldl (gather step) (#[], state)).1.toList,
          (data.foldl (gather step) (#[], state)).2) := rfl

theorem foldl_gather : ∀ (data : Bytes) (done : Array UInt8) (state : Feedback),
    data.foldl (gather step) (done, state)
      = (done ++ (data.foldl (gather step) (#[], state)).1,
          (data.foldl (gather step) (#[], state)).2) := by
  intro data
  induction data with
  | nil => intro done state; simp
  | cons byte data ih =>
      intro done state
      rw [List.foldl_cons, List.foldl_cons, gather, gather, ih (done.push _), ih (#[].push _)]
      simp

@[simp] theorem stream_nil (state : Feedback) : stream step state [] = ([], state) := rfl

theorem stream_cons (state : Feedback) (byte : UInt8) (data : Bytes) :
    stream step state (byte :: data)
      = ((step state byte).1 :: (stream step (step state byte).2 data).1,
          (stream step (step state byte).2 data).2) := by
  rw [stream_eq_gather, stream_eq_gather, List.foldl_cons, gather, foldl_gather]
  simp

theorem stream_append : ∀ (front back : Bytes) (state : Feedback),
    stream step state (front ++ back)
      = ((stream step state front).1 ++ (stream step (stream step state front).2 back).1,
          (stream step (stream step state front).2 back).2) := by
  intro front
  induction front with
  | nil => intro back state; simp
  | cons byte front ih =>
      intro back state
      rw [List.cons_append, stream_cons, ih, stream_cons]
      simp

@[simp] theorem length_stream : ∀ (data : Bytes) (state : Feedback),
    (stream step state data).1.length = data.length := by
  intro data
  induction data with
  | nil => intro state; rfl
  | cons byte data ih => intro state; rw [stream_cons]; simp [ih]

/-- What was sealed from a register on is opened from it, and the registers stay equal. -/
theorem stream_open_seal : ∀ (data : Bytes) (state : Feedback),
    stream openByte state (stream sealByte state data).1
      = (data, (stream sealByte state data).2) := by
  intro data
  induction data with
  | nil => intro state; rfl
  | cons byte data ih =>
      intro state
      have hmask : (byte ^^^ state.mask) ^^^ state.mask = byte := by
        rw [UInt8.xor_assoc, UInt8.xor_self, UInt8.xor_zero]
      rw [stream_cons, stream_cons]
      simp only [sealByte, openByte]
      rw [ih, hmask]

end Feedback

namespace Cipher

@[simp] theorem decrypt_nil (cipher : Cipher) : cipher.decrypt [] = ([], cipher) := rfl

@[simp] theorem length_decrypt (cipher : Cipher) (data : Bytes) :
    (cipher.decrypt data).1.length = data.length :=
  Feedback.length_stream Feedback.openByte data cipher.incoming

theorem decrypt_append (cipher : Cipher) (front back : Bytes) :
    cipher.decrypt (front ++ back)
      = ((cipher.decrypt front).1 ++ ((cipher.decrypt front).2.decrypt back).1,
          ((cipher.decrypt front).2.decrypt back).2) := by
  simp only [decrypt, Feedback.stream_append]

end Cipher
end PhaseWire
