import PhaseWire.Phase
import PhaseWire.Text.Hex

/-
# `Fault` — every way in which an operation can fail

A fault is a cause with the data that describes it.  Its wording is one
function, `Fault.message`, and its blame two: `byPeer` says that the peer
sent something malformed, which costs the peer its connection, and
`bySetup` that the application registered or configured something that
cannot work.  A fault of the transport or of the application's own code
is neither.
-/

namespace PhaseWire

/-- The cause of a failed operation. -/
inductive Fault
  | transport (text : String)
  /-- A 32-bit variable-length number does not end within five bytes. -/
  | varIntTooLong
  /-- A 64-bit variable-length number does not end within ten bytes. -/
  | varLongTooLong
  /-- A field needs more bytes than there are. -/
  | unexpectedEnd (needed remaining : Nat)
  | textTooLong (length max : Nat)
  | malformedText
  | negativeLength (length : Int32)
  /-- The id is taken for this phase and direction. -/
  | idTaken (phase : Phase) (direction : Direction) (id : Int32) (holder : String)
  | typeTaken (typeName : String)
  | unknownType (typeName : String)
  /-- No packet has this id in this phase and direction. -/
  | unknownId (phase : Phase) (direction : Direction) (id : Int32)
  | sizeOutOfBounds (typeName : String) (size min max : Nat)
  /-- A frame, an array or a body is longer than its limit. -/
  | tooLarge (length : Nat)
  | emptyFrame
  | trailingBytes (typeName : String) (remaining : Nat)
  /-- A compressed body has another length than its prefix declares. -/
  | lengthMismatch (declared actual : Nat)
  /-- A compressed body is too short to have been compressed. -/
  | belowThreshold (declared threshold : Nat)
  /-- The compressor failed. -/
  | compression
  /-- The compressed data is malformed. -/
  | decompression
  /-- A cipher key has not sixteen bytes. -/
  | keyLength (length : Nat)
  | alreadyEncrypted
  | stageNotFound (stage : String)
  /-- A stage would stand on the wrong side of the framer. -/
  | stageOrder (rule : String)
  /-- A stage of this name stays installed for good. -/
  | stagePinned (stage : String)
  | closed
  /-- A time limit has passed. -/
  | timeout
  /-- A setting or a request cannot work. -/
  | setup (text : String)
  | custom (text : String)
  deriving DecidableEq, Repr, Inhabited

namespace Fault

/-- A packet id in diagnostics: its 32 bits in hexadecimal, at least two digits. -/
def idText (id : Int32) : String :=
  "0x" ++ Text.hexDigits 2 id.toUInt32.toNat

def message : Fault → String
  | transport text => s!"I/O error: {text}"
  | varIntTooLong => "VarInt is too long (more than 5 bytes)"
  | varLongTooLong => "VarLong is too long (more than 10 bytes)"
  | unexpectedEnd needed remaining =>
    s!"Unexpected end of packet: needed {needed} bytes, {remaining} remaining"
  | textTooLong length max => s!"String of {length} characters exceeds maximum of {max}"
  | malformedText => "String is not valid UTF-8"
  | negativeLength length => s!"Negative length prefix: {length.toInt}"
  | idTaken phase direction id holder =>
    s!"Packet id {idText id} is already registered for {phase.title}/{direction.title} (by {holder})"
  | typeTaken typeName => s!"Packet type {typeName} is registered more than once"
  | unknownType typeName => s!"Unknown packet type: {typeName}"
  | unknownId phase direction id =>
    s!"Unknown packet id {idText id} for {phase.title}/{direction.title}"
  | sizeOutOfBounds typeName size min max =>
    s!"Frame for {typeName} has {size} field bytes, allowed range is [{min}, {max}]"
  | tooLarge length => s!"Frame too large: {length} bytes"
  | emptyFrame => "Frame is empty and cannot carry a packet id"
  | trailingBytes typeName remaining =>
    s!"{typeName} left {remaining} trailing bytes after decoding"
  | lengthMismatch declared actual =>
    s!"Compressed frame declared {declared} bytes but inflated to {actual}"
  | belowThreshold declared threshold =>
    s!"Compressed frame of {declared} bytes is below the threshold of {threshold}"
  | compression => "Compression failed"
  | decompression => "Decompression failed"
  | keyLength length => s!"Invalid encryption key length: {length} bytes (expected 16)"
  | alreadyEncrypted => "Encryption is already enabled on this connection"
  | stageNotFound stage => s!"Pipeline stage not found: {stage}"
  | stageOrder rule => s!"Invalid pipeline order: {rule}"
  | stagePinned stage => s!"Pipeline stage cannot be removed: {stage}"
  | closed => "Connection closed"
  | timeout => "Timeout occurred"
  | setup text => s!"Configuration error: {text}"
  | custom text => s!"Custom error: {text}"

/-- Whether the peer caused the fault by what it sent or failed to send. -/
def byPeer : Fault → Bool
  | varIntTooLong | varLongTooLong | unexpectedEnd .. | textTooLong .. | malformedText
  | negativeLength _ | unknownId .. | sizeOutOfBounds .. | tooLarge _ | emptyFrame
  | trailingBytes .. | lengthMismatch .. | belowThreshold .. | decompression | timeout => true
  | _ => false

/-- Whether the fault is a mistake in how the application set things up. -/
def bySetup : Fault → Bool
  | idTaken .. | typeTaken _ | unknownType _ | stageNotFound _ | stageOrder _ | stagePinned _
  | keyLength _ | alreadyEncrypted | setup _ => true
  | _ => false

end Fault

/-! ## Fixed wordings -/

namespace Reason

/-- The peer was silent, or took no bytes, for too long. -/
def timedOut : String := "Timed out"

def connectionClosed : String := "Connection closed"

/-- The peer closed its end. -/
def endOfStream : String := "End of stream"

/-- The server is going away. -/
def serverShutdown : String := "Server shutting down"

def cipherAfterFramer : String := "Byte stages must be placed before the framer"

/-- Compression works on whole frames. -/
def compressionBeforeFramer : String := "Frame stages must be placed after the framer"

def alreadyStarted : String := "Session driver was already started"

end Reason
end PhaseWire
