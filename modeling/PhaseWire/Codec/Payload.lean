import PhaseWire.Registry

/-
# `PacketCodec` — packets and payloads

A payload is a packet id and the packet's fields.  Which id stands for
which type depends on the phase when a payload is read; a packet that is
written is looked up by its type.  Both ways the size of the fields is
held to the bounds of the type.
-/

namespace PhaseWire

variable {E : Type} [CustomPackets E]

structure PacketCodec (E : Type) [CustomPackets E] where
  registry : Registry E
  phase : Phase

namespace PacketCodec

/-- A codec at the start of a connection. -/
def new (registry : Registry E) : PacketCodec E :=
  ⟨registry, .handshake⟩

/-- Fails unless a packet type admits fields of this size. -/
def checkSize (descriptor : Descriptor E) (size : Nat) : Except Fault Unit :=
  if descriptor.accepts size then .ok ()
  else .error (.sizeOutOfBounds descriptor.typeName size descriptor.minSize descriptor.maxSize)

/-- The packet of a known type in the bytes of its fields, which it must use up. -/
def decodeFields (descriptor : Descriptor E) (fields : Bytes) : Except Fault (Packet E) :=
  match checkSize descriptor fields.length with
  | .error fault => .error fault
  | .ok () =>
    match (Packet.read descriptor.produces).onBuffer fields with
    | (.error fault, _) => .error fault
    | (.ok packet, []) => .ok packet
    | (.ok _, rest) => .error (.trailingBytes descriptor.typeName rest.length)

def decode (codec : PacketCodec E) (payload : Bytes) : Except Fault (Packet E) :=
  if payload.isEmpty then .error .emptyFrame
  else match Reader.varInt.onBuffer payload with
    | (.error fault, _) => .error fault
    | (.ok id, fields) =>
      match codec.registry.ofId codec.phase .inbound id with
      | .error fault => .error fault
      | .ok descriptor => decodeFields descriptor fields

def encode (codec : PacketCodec E) (packet : Packet E) : Except Fault Bytes :=
  match codec.registry.ofPacket packet with
  | .error fault => .error fault
  | .ok descriptor =>
    if descriptor.direction ≠ .outbound then
      .error (.setup s!"{descriptor.typeName} is registered as inbound and cannot be sent")
    else match packet.write with
      | .error fault => .error fault
      | .ok fields =>
        match checkSize descriptor fields.length with
        | .error fault => .error fault
        | .ok () => .ok (Field.varInt descriptor.id ++ fields)

end PacketCodec
end PhaseWire
