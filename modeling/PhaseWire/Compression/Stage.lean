import PhaseWire.Compression.Method
import PhaseWire.VarNum

/-
# `Compressor` — bodies behind their uncompressed length

A body is compressed if it is not empty and reaches the threshold; then
its length stands in front of the compressed bytes.  Otherwise a zero
stands in front of the body itself.  Reading accepts a length only between
the threshold and the cap, and only if the data then really has it.
-/

namespace PhaseWire

/-- The largest body that compressed data may expand to, unless it is set otherwise. -/
def Limit.uncompressed : Nat := 8388608

structure Compressor where
  /-- Bodies of at least so many bytes are compressed. -/
  threshold : Nat
  method : Method
  level : Int32
  /-- The largest body that is accepted. -/
  maxBody : Nat
  library : Library
  deriving Inhabited

namespace Compressor

/-- A compressor with the usual cap. -/
def new (threshold : Nat) (method : Method) (level : Int32) : Compressor :=
  ⟨threshold, method, level, Limit.uncompressed, .standard⟩

def applies (compressor : Compressor) (body : Bytes) : Bool :=
  !body.isEmpty && compressor.threshold ≤ body.length

def compress (compressor : Compressor) (body : Bytes) : Except Fault Bytes :=
  compressor.method.compress compressor.library compressor.level body

def encode (compressor : Compressor) (body : Bytes) : Except Fault (Bytes × Bool) :=
  if compressor.applies body then
    match compressor.compress body with
    | .error fault => .error fault
    | .ok compressed => .ok (VarNum.encodeInt (Int32.ofNat body.length) ++ compressed, true)
  else .ok (VarNum.encodeInt 0 ++ body, false)

def expand (compressor : Compressor) (declared : Nat) (data : Bytes) : Except Fault Bytes :=
  if declared < compressor.threshold then .error (.belowThreshold declared compressor.threshold)
  else if compressor.maxBody < declared then .error (.tooLarge declared)
  else match compressor.method.decompress declared data with
    | .error fault => .error fault
    | .ok body =>
      if body.length = declared then .ok body else .error (.lengthMismatch declared body.length)

/-- The body behind a prefix. -/
def decode (compressor : Compressor) (frame : Bytes) : Except Fault Bytes :=
  match VarNum.peekInt frame with
  | .error fault => .error fault
  | .ok none => .error (.unexpectedEnd (frame.length + 1) frame.length)
  | .ok (some (declared, used)) =>
    let data := frame.drop used
    if declared = 0 then .ok data
    else if declared < 0 then .error (.negativeLength declared)
    else compressor.expand declared.toInt.toNat data

end Compressor
end PhaseWire
