import PhaseWire.Bytes
import PhaseWire.Fault
import PhaseWire.Cipher.Block

/-
# `Cipher` — the byte stream cipher of a connection

AES-128 with eight-bit cipher feedback: each byte is masked with the first
byte of the encrypted register, and the register then takes in the byte of
the ciphertext.  The register starts as the key.  A connection has one
register for each direction, so the two streams do not disturb each other,
and cutting a stream into pieces does not change it.
-/

namespace PhaseWire

/-- The length of a cipher key in bytes. -/
def Limit.cipherKey : Nat := 16

/-- One direction of a cipher: its round keys and its register. -/
structure Feedback where
  schedule : Aes.Schedule
  register : Aes.Block
  deriving DecidableEq, Repr, Inhabited

namespace Feedback

def ofKey (key : Bytes) : Feedback :=
  let block := Aes.Block.ofBytes key
  ⟨.ofKey block, block⟩

/-- The mask of the next byte. -/
def mask (state : Feedback) : UInt8 :=
  (Aes.encrypt state.schedule state.register).first

def absorb (state : Feedback) (byte : UInt8) : Feedback :=
  { state with register := state.register.shift byte }

def sealByte (state : Feedback) (byte : UInt8) : UInt8 × Feedback :=
  let cipher := byte ^^^ state.mask
  (cipher, state.absorb cipher)

def openByte (state : Feedback) (byte : UInt8) : UInt8 × Feedback :=
  (byte ^^^ state.mask, state.absorb byte)

def stream (step : Feedback → UInt8 → UInt8 × Feedback) (state : Feedback) (data : Bytes) :
    Bytes × Feedback :=
  let (out, last) := data.foldl
    (fun (out, state) byte =>
      let (result, next) := step state byte
      (out.push result, next))
    ((#[] : Array UInt8), state)
  (out.toList, last)

end Feedback

/-- The cipher of a connection, one state for each direction. -/
structure Cipher where
  outgoing : Feedback
  incoming : Feedback
  deriving DecidableEq, Repr, Inhabited

namespace Cipher

def ofKey (key : Bytes) : Except Fault Cipher :=
  if key.length = Limit.cipherKey then .ok ⟨.ofKey key, .ofKey key⟩
  else .error (.keyLength key.length)

/-- The cipher in diagnostics; it shows no key. -/
def render (_ : Cipher) : String :=
  "CipherStage(aes-128-cfb8)"

/-- Encrypts the next bytes that go out. -/
def encrypt (cipher : Cipher) (data : Bytes) : Bytes × Cipher :=
  let (out, outgoing) := Feedback.stream Feedback.sealByte cipher.outgoing data
  (out, { cipher with outgoing })

/-- Decrypts the next bytes that came in. -/
def decrypt (cipher : Cipher) (data : Bytes) : Bytes × Cipher :=
  let (out, incoming) := Feedback.stream Feedback.openByte cipher.incoming data
  (out, { cipher with incoming })

end Cipher
end PhaseWire
