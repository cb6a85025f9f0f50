import PhaseWire.Registry

/-
# `Frame` — bodies behind their length

A frame is the length of its body as a 32-bit variable-length number,
then the body.  Decoding takes one whole frame off the front of a buffer;
while the prefix or the body is incomplete it takes nothing.
-/

namespace PhaseWire.Frame

/-- The body of the first frame of a buffer and what follows it; `none` asks for more bytes. -/
def decode (maxBody : Nat) (buffer : Bytes) : Except Fault (Option (Bytes × Bytes)) :=
  match VarNum.peekInt buffer with
  | .error fault => .error fault
  | .ok none => .ok none
  | .ok (some (length, used)) =>
    if length < 0 then .error (.negativeLength length)
    else
      let size := length.toInt.toNat
      if maxBody < size then .error (.tooLarge size)
      else if buffer.length < used + size then .ok none
      else .ok (some ((buffer.drop used).splitAt size))

def encode (maxBody : Nat) (body : Bytes) : Except Fault Bytes :=
  if maxBody < body.length then .error (.tooLarge body.length)
  else .ok (VarNum.encodeInt (Int32.ofNat body.length) ++ body)

/-- The length in front of a body of so many bytes. -/
def announce (maxBody size : Nat) : Except Fault Bytes :=
  if maxBody < size then .error (.tooLarge size) else .ok (VarNum.encodeInt (Int32.ofNat size))

/-- What stands in front of a body depends on its size alone. -/
theorem encode_eq_announce (maxBody : Nat) (body : Bytes) :
    encode maxBody body = (announce maxBody body.length).map (· ++ body) := by
  rw [encode, announce]
  split <;> rfl

end PhaseWire.Frame
