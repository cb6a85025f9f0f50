import PhaseWire.Packet.Custom
import PhaseWire.Proofs.Field

/-
# Raw accesses, and the checks in front of them

A `Reader` cannot run past the end of its buffer.  The buffers that packets
are read from can: they hand out a byte, a number or a stretch of bytes
without asking whether there are as many, and stop the program if there are
not.  `Raw` readers are written over such accesses, and over sums and
differences of lengths that stop the program if they do not fit 64 bits or
fall below zero.

The module turns on `guarded_tracks`: an access behind a check of the
remaining bytes does what a `Reader` does that takes all of its bytes or
none.  From it every field, and by `Tracks.bind` the fields of every core
packet, are read as the `Reader` of the same name reads them, whatever
bytes there are.
-/

namespace PhaseWire

/-- How a program stops that does what it must not. -/
inductive Panic
  /-- An access to more bytes than remain. -/
  | short (needed remaining : Nat)
  /-- A sum of lengths that does not fit. -/
  | overflow (length added : Nat)
  /-- A difference of lengths below zero. -/
  | underflow (length taken : Nat)
  /-- Code of an application, of which nothing is known. -/
  | foreign
  deriving DecidableEq, Repr

/-! ## Lengths -/

namespace Length

/-- A sum of lengths, which must fit. -/
def add (length added : Nat) : Except Panic Nat :=
  if length + added < UInt64.size then .ok (length + added) else .error (.overflow length added)

/-- A difference of lengths, which must not fall below zero. -/
def sub (length taken : Nat) : Except Panic Nat :=
  if taken ≤ length then .ok (length - taken) else .error (.underflow length taken)

theorem add_of_lt {length added : Nat} (h : length + added < UInt64.size) :
    add length added = .ok (length + added) :=
  if_pos h

theorem sub_of_le {length taken : Nat} (h : taken ≤ length) :
    sub length taken = .ok (length - taken) :=
  if_pos h

end Length

/-! ## Readers over raw accesses -/

/-- Takes a value off the front of a buffer, if nothing stops it. -/
abbrev Raw (α : Type) := ExceptT Fault (StateT Bytes (Except Panic)) α

namespace Raw

variable {α β : Type}

/-- The outcome on a buffer, and what is left of the buffer. -/
def onBuffer (raw : Raw α) (buffer : Bytes) : Except Panic (Except Fault α × Bytes) :=
  raw.run.run buffer

/-- Fails and leaves the buffer as it is. -/
def fail (fault : Fault) : Raw α :=
  throw fault

/-- What may stop the program, on no bytes. -/
def lift (value : Except Panic α) : Raw α :=
  ExceptT.lift (StateT.lift value)

/-- How many bytes are left. -/
def remaining : Raw Nat :=
  return (← get).length

/-- Fails unless at least `needed` bytes are left. -/
def ensure (needed : Nat) : Raw Unit := do
  let left ← remaining
  if left < needed then fail (.unexpectedEnd needed left)

def take (count : Nat) : Raw Bytes := do
  let buffer ← get
  if buffer.length < count then lift (.error (.short count buffer.length))
  else
    set (buffer.drop count)
    return buffer.take count

def getByte : Raw UInt8 := do
  match ← get with
  | [] => lift (.error (.short 1 0))
  | first :: others =>
    set others
    return first

/-- The number in the next `width` bytes, which must be there. -/
def getFixed (width : Nat) : Raw Nat :=
  return Bytes.ofBigEndian (← take width)

/-- Drops the next `count` bytes, which must be there. -/
def advance (count : Nat) : Raw Unit := do
  let _ ← take count

/-- Room for more bytes behind those that are left: the length of all must fit. -/
def reserve (additional : Nat) : Raw Unit := do
  let _ ← lift (Length.add (← remaining) additional)

/-! ## Fields -/

def groups (tooLong : Fault) : (room : Nat) → Raw Nat
  | 0 => fail tooLong
  | room + 1 => do
    ensure 1
    let first ← getByte
    if first < 128 then return first.toNat
    else return first.toNat - 128 + 128 * (← groups tooLong room)

def varInt : Raw Int32 :=
  return Int32.ofNat (← groups .varIntTooLong VarNum.intBytes)

def bigEndian (width : Nat) : Raw Nat := do
  ensure width
  getFixed width

def word16 : Raw UInt16 :=
  return UInt16.ofNat (← bigEndian 2)

def int64 : Raw Int64 :=
  return Int64.ofNat (← bigEndian 8)

def length : Raw Nat := do
  let prefixed ← varInt
  if prefixed < 0 then fail (.negativeLength prefixed)
  else return prefixed.toInt.toNat

def text (max : Nat) : Raw String := do
  let declared ← length
  if Reader.textBytes max < declared then fail (.textTooLong declared max)
  ensure declared
  let raw ← take declared
  match Bytes.toText? raw with
  | none => fail .malformedText
  | some found =>
    if max < found.length then fail (.textTooLong found.length max)
    else return found

def array (max : Nat) : Raw Bytes := do
  let declared ← length
  if max < declared then fail (.tooLarge declared)
  ensure declared
  take declared

def core : CoreKind → Raw CorePacket
  | .handshake => do
    let protocolVersion ← varInt
    let serverAddress ← text Limit.host
    let serverPort ← word16
    let intent ← varInt
    return .handshake protocolVersion serverAddress serverPort intent
  | .statusRequest => return .statusRequest
  | .statusResponse => return .statusResponse (← text Limit.text)
  | .statusPing => return .statusPing (← int64)
  | .statusPong => return .statusPong (← int64)
  | .loginStart => return .loginStart (← text Limit.username)
  | .loginDisconnect => return .loginDisconnect (← text Limit.text)
  | .encryptionRequest => do
    let serverId ← text Limit.serverId
    let publicKey ← array Limit.key
    let verifyToken ← array Limit.token
    return .encryptionRequest serverId publicKey verifyToken
  | .encryptionResponse => do
    let sharedSecret ← array Limit.token
    let verifyToken ← array Limit.token
    return .encryptionResponse sharedSecret verifyToken
  | .loginSuccess => do
    let uuid ← text Limit.uuidText
    let username ← text Limit.username
    return .loginSuccess uuid username
  | .setCompression => return .setCompression (← varInt)
  | .clientboundKeepAlive => return .clientboundKeepAlive (← varInt)
  | .serverboundKeepAlive => return .serverboundKeepAlive (← varInt)
  | .playDisconnect => return .playDisconnect (← text Limit.text)

/-- The fields of a packet.  What an application does with the buffer is its own affair. -/
def packet {E : Type} [CustomPackets E] : PacketKind E → Raw (Packet E)
  | .core kind => return .core (← core kind)
  | .custom _ => lift (.error .foreign)

/-! ## Raw readers that nothing stops -/

theorem onBuffer_bind (raw : Raw α) (next : α → Raw β) (buffer : Bytes) :
    (raw >>= next).onBuffer buffer =
      match raw.onBuffer buffer with
      | .ok (.ok value, rest) => (next value).onBuffer rest
      | .ok (.error fault, rest) => .ok (.error fault, rest)
      | .error panic => .error panic := by
  show (raw.onBuffer buffer >>= fun found => (ExceptT.bindCont next found.1) found.2) = _
  rcases raw.onBuffer buffer with panic | ⟨fault | value, rest⟩
  · rfl
  · rfl
  · rfl

theorem onBuffer_bind_of_ok {raw : Raw α} {buffer rest : Bytes} {value : α}
    (h : raw.onBuffer buffer = .ok (.ok value, rest)) (next : α → Raw β) :
    (raw >>= next).onBuffer buffer = (next value).onBuffer rest := by
  rw [onBuffer_bind, h]

theorem onBuffer_ensure (needed : Nat) (buffer : Bytes) :
    (ensure needed).onBuffer buffer =
      if buffer.length < needed then .ok (.error (.unexpectedEnd needed buffer.length), buffer)
      else .ok (.ok (), buffer) := by
  show (if buffer.length < needed then fail (.unexpectedEnd needed buffer.length)
    else pure () : Raw Unit).onBuffer buffer = _
  split
  · rfl
  · rfl

theorem onBuffer_take {count : Nat} {buffer : Bytes} (h : count ≤ buffer.length) :
    (take count).onBuffer buffer = .ok (.ok (buffer.take count), buffer.drop count) := by
  show (if buffer.length < count then lift (.error (.short count buffer.length)) else do
    set (buffer.drop count)
    return buffer.take count : Raw Bytes).onBuffer buffer = _
  rw [if_neg (Nat.not_lt.2 h)]
  rfl

/-- A raw reader that does on every buffer what a reader does that nothing can stop. -/
def Tracks (raw : Raw α) (reader : Reader α) : Prop :=
  ∀ buffer, raw.onBuffer buffer = .ok (reader.onBuffer buffer)

theorem pure_tracks (value : α) : (pure value : Raw α).Tracks (pure value) :=
  fun _ => rfl

theorem fail_tracks (fault : Fault) : (fail fault : Raw α).Tracks (Reader.fail fault) :=
  fun _ => rfl

theorem Tracks.bind {raw : Raw α} {reader : Reader α} {next : α → Raw β}
    {follow : α → Reader β} (hfirst : raw.Tracks reader)
    (hnext : ∀ value, (next value).Tracks (follow value)) :
    (raw >>= next).Tracks (reader >>= follow) := by
  intro buffer
  rw [onBuffer_bind, hfirst buffer, Reader.onBuffer_bind]
  rcases reader.onBuffer buffer with ⟨fault | value, rest⟩
  · rfl
  · exact hnext value rest

theorem Tracks.map {raw : Raw α} {reader : Reader α} (h : raw.Tracks reader) (make : α → β) :
    (do return make (← raw) : Raw β).Tracks (do return make (← reader)) :=
  h.bind fun value => pure_tracks (make value)

/-- What follows a guarded access follows the access alone. -/
theorem Tracks.behind {check : Raw Unit} {access : Raw α} {next : α → Raw β} {reader : Reader β}
    (h : ((do check; access : Raw α) >>= next).Tracks reader) :
    (do check; let value ← access; next value : Raw β).Tracks reader := by
  rwa [bind_assoc] at h

/-- A check that may fail, in front of two readers that go on alike. -/
theorem Tracks.check {raw : Raw α} {reader : Reader α} (h : raw.Tracks reader) (refused : Prop)
    [Decidable refused] (fault : Fault) :
    (do if refused then fail fault
        raw : Raw α).Tracks (do if refused then Reader.fail fault
                                reader) := by
  by_cases hrefused : refused
  · simp only [if_pos hrefused]
    exact (fail_tracks fault).bind fun _ => h
  · simp only [if_neg hrefused]
    exact (pure_tracks ()).bind fun _ => h

/-! ### Guards -/

/-- An access that is fine where as many bytes are left as the check in front of it asks for is fine
everywhere. -/
theorem guarded_tracks {needed : Nat} {access : Raw α} {make : Bytes → α}
    (h : ∀ buffer : Bytes, needed ≤ buffer.length →
      access.onBuffer buffer = .ok (.ok (make (buffer.take needed)), buffer.drop needed)) :
    (do ensure needed; access : Raw α).Tracks (do return make (← Reader.bytes needed)) := by
  intro buffer
  rw [onBuffer_bind, onBuffer_ensure, Reader.onBuffer_bind, Reader.onBuffer_bytes]
  by_cases hshort : buffer.length < needed
  · simp only [if_pos hshort]
  · simp only [if_neg hshort]
    exact h buffer (Nat.not_lt.1 hshort)

/-- Without its check the access stops the program. -/
example : getByte.onBuffer [] = .error (.short 1 0) := rfl

theorem byte_tracks : (do ensure 1; getByte : Raw UInt8).Tracks Reader.byte := by
  intro buffer
  cases buffer with
  | nil => rfl
  | cons first rest => rfl

theorem bytes_tracks (count : Nat) :
    (do ensure count; take count : Raw Bytes).Tracks (Reader.bytes count) := by
  have hid : (do return id (← Reader.bytes count) : Reader Bytes) = Reader.bytes count :=
    bind_pure _
  rw [← hid]
  exact guarded_tracks fun buffer hfits => onBuffer_take hfits

theorem bigEndian_tracks (width : Nat) : (bigEndian width).Tracks (Reader.bigEndian width) := by
  refine guarded_tracks fun buffer hfits => ?_
  rw [getFixed, onBuffer_bind_of_ok (onBuffer_take hfits)]
  rfl

theorem groups_tracks (tooLong : Fault) : ∀ room : Nat,
    (groups tooLong room).Tracks (Reader.groups tooLong room) := by
  intro room
  induction room with
  | zero => exact fail_tracks tooLong
  | succ room ih =>
      refine Tracks.behind (byte_tracks.bind fun first => ?_)
      split
      · exact pure_tracks _
      · exact ih.map _

/-! ### Fields -/

theorem varInt_tracks : varInt.Tracks Reader.varInt :=
  (groups_tracks .varIntTooLong VarNum.intBytes).map _

theorem word16_tracks : word16.Tracks Reader.word16 :=
  (bigEndian_tracks 2).map _

theorem int64_tracks : int64.Tracks Reader.int64 :=
  (bigEndian_tracks 8).map _

theorem length_tracks : length.Tracks Reader.length := by
  refine varInt_tracks.bind fun prefixed => ?_
  split
  · exact fail_tracks _
  · exact pure_tracks _

theorem array_tracks (max : Nat) : (array max).Tracks (Reader.array max) :=
  length_tracks.bind fun declared => (bytes_tracks declared).check _ _

theorem text_tracks (max : Nat) : (text max).Tracks (Reader.text max) := by
  refine length_tracks.bind fun declared => Tracks.check ?_ _ _
  refine Tracks.behind ((bytes_tracks declared).bind fun raw => ?_)
  cases Bytes.toText? raw with
  | none => exact fail_tracks _
  | some found =>
      dsimp only
      split
      · exact fail_tracks _
      · exact pure_tracks _

theorem core_tracks (kind : CoreKind) : (core kind).Tracks (CorePacket.read kind) := by
  cases kind with
  | handshake =>
      exact varInt_tracks.bind fun _ => (text_tracks _).bind fun _ => word16_tracks.bind fun _ =>
        varInt_tracks.map _
  | statusRequest => exact pure_tracks _
  | statusResponse => exact (text_tracks _).map _
  | statusPing => exact int64_tracks.map _
  | statusPong => exact int64_tracks.map _
  | loginStart => exact (text_tracks _).map _
  | loginDisconnect => exact (text_tracks _).map _
  | encryptionRequest =>
      exact (text_tracks _).bind fun _ => (array_tracks _).bind fun _ => (array_tracks _).map _
  | encryptionResponse => exact (array_tracks _).bind fun _ => (array_tracks _).map _
  | loginSuccess => exact (text_tracks _).bind fun _ => (text_tracks _).map _
  | setCompression => exact varInt_tracks.map _
  | clientboundKeepAlive => exact varInt_tracks.map _
  | serverboundKeepAlive => exact varInt_tracks.map _
  | playDisconnect => exact (text_tracks _).map _

end Raw
end PhaseWire
