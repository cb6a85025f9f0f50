import PhaseWire.Packet.Custom

/-
# `Registry` — which packet types there are, and their ids

A registry is the list of the descriptors that were accepted, in order.
A registration is accepted if its size bounds are in order, its type is
new, and its id is free in its phase and direction; a refused one changes
nothing.  A packet to be sent is looked up by its type, which must be
registered by the application; a packet received is looked up by its id in
the current phase, and an unknown one is the peer's fault.
-/

namespace PhaseWire

/-- Largest frame body: the largest length in a three-byte prefix. -/
def Limit.frame : Nat := 2097151

variable {E : Type} [CustomPackets E]

/-! ## Descriptors -/

/-- What is known of a registered packet type.  Sizes count the bytes behind the packet id. -/
structure Descriptor (E : Type) [CustomPackets E] where
  id : Int32
  phase : Phase
  direction : Direction
  minSize : Nat
  maxSize : Nat
  /-- A hint for the size of an encoded packet. -/
  preferredSize : Nat
  kind : PacketKind E
  /-- The type whose packets a frame of this id is read as. -/
  produces : PacketKind E

namespace Descriptor

def typeName (descriptor : Descriptor E) : String :=
  descriptor.kind.typeName

/-- Whether the fields of this packet type may take so many bytes. -/
def accepts (descriptor : Descriptor E) (size : Nat) : Bool :=
  decide (descriptor.minSize ≤ size) && decide (size ≤ descriptor.maxSize)

def render (descriptor : Descriptor E) : String :=
  "PacketDescriptor \x7b id: " ++ Fault.idText descriptor.id
    ++ ", phase: " ++ descriptor.phase.title
    ++ ", direction: " ++ descriptor.direction.title
    ++ ", min_size: " ++ toString descriptor.minSize
    ++ ", max_size: " ++ toString descriptor.maxSize
    ++ ", preferred_size: " ++ toString descriptor.preferredSize
    ++ ", name: \"" ++ descriptor.typeName ++ "\" \x7d"

end Descriptor

structure Registration (E : Type) [CustomPackets E] where
  id : Int32
  phase : Phase
  direction : Direction
  kind : PacketKind E
  minSize : Nat
  maxSize : Nat
  /-- The hint for the encoded size, if it is not the middle of the bounds. -/
  preferredSize? : Option Nat
  produces : PacketKind E

namespace Registration

/-- A type under an id, with the widest bounds. -/
def of (kind : PacketKind E) (phase : Phase) (direction : Direction) (id : Int32) :
    Registration E where
  id := id
  phase := phase
  direction := direction
  kind := kind
  minSize := 0
  maxSize := Limit.frame
  preferredSize? := none
  produces := kind

def bounds (entry : Registration E) (minSize maxSize : Nat) : Registration E :=
  { entry with minSize, maxSize }

/-- The same with one admitted size. -/
def exact (entry : Registration E) (size : Nat) : Registration E :=
  entry.bounds size size

/-- The same with a hint for the encoded size. -/
def preferred (entry : Registration E) (size : Nat) : Registration E :=
  { entry with preferredSize? := some size }

/-- The same with frames read as packets of another type. -/
def producing (entry : Registration E) (kind : PacketKind E) : Registration E :=
  { entry with produces := kind }

def descriptor (entry : Registration E) : Descriptor E where
  id := entry.id
  phase := entry.phase
  direction := entry.direction
  minSize := entry.minSize
  maxSize := entry.maxSize
  preferredSize :=
    entry.preferredSize?.getD (entry.minSize + (entry.maxSize - entry.minSize) / 2)
  kind := entry.kind
  produces := entry.produces

end Registration

/-! ## Registries -/

/-- The accepted descriptors, oldest first. -/
structure Registry (E : Type) [CustomPackets E] where
  descriptors : List (Descriptor E)

namespace Registry

/-- No packet types. -/
def empty : Registry E :=
  ⟨[]⟩

def ofKind? (registry : Registry E) (kind : PacketKind E) : Option (Descriptor E) :=
  registry.descriptors.find? (fun descriptor => descriptor.kind = kind)

def ofId? (registry : Registry E) (phase : Phase) (direction : Direction) (id : Int32) :
    Option (Descriptor E) :=
  registry.descriptors.find? fun descriptor =>
    descriptor.phase = phase ∧ descriptor.direction = direction ∧ descriptor.id = id

def ofKind (registry : Registry E) (kind : PacketKind E) : Except Fault (Descriptor E) :=
  match registry.ofKind? kind with
  | some descriptor => .ok descriptor
  | none => .error (.unknownType kind.typeName)

def ofPacket (registry : Registry E) (packet : Packet E) : Except Fault (Descriptor E) :=
  registry.ofKind packet.kind

def ofId (registry : Registry E) (phase : Phase) (direction : Direction) (id : Int32) :
    Except Fault (Descriptor E) :=
  match registry.ofId? phase direction id with
  | some descriptor => .ok descriptor
  | none => .error (.unknownId phase direction id)

/-- The number of registered types. -/
def size (registry : Registry E) : Nat :=
  registry.descriptors.length

def table (registry : Registry E) (phase : Phase) (direction : Direction) :
    List (Descriptor E) :=
  registry.descriptors.filter fun descriptor =>
    descriptor.phase = phase ∧ descriptor.direction = direction

def ids (registry : Registry E) (phase : Phase) (direction : Direction) : List Int :=
  ((registry.table phase direction).map (·.id.toInt)).mergeSort

/-- Adds a packet type, or says why it is refused. -/
def register (registry : Registry E) (entry : Registration E) : Except Fault (Registry E) :=
  let descriptor := entry.descriptor
  if entry.maxSize < entry.minSize then
    .error (.setup
      s!"{descriptor.typeName}: minimum size {entry.minSize} exceeds maximum size {entry.maxSize}")
  else if (registry.ofKind? entry.kind).isSome then
    .error (.typeTaken descriptor.typeName)
  else match registry.ofId? entry.phase entry.direction entry.id with
    | some holder => .error (.idTaken entry.phase entry.direction entry.id holder.typeName)
    | none => .ok ⟨registry.descriptors ++ [descriptor]⟩

/-- Adds packet types in turn until one is refused; those before it stay registered. -/
def registerAll (registry : Registry E) : List (Registration E) → Except Fault Unit × Registry E
  | [] => (.ok (), registry)
  | entry :: entries =>
    match registry.register entry with
    | .error fault => (.error fault, registry)
    | .ok grown => grown.registerAll entries

/-! ## The core packet types -/

def coreEntry (kind : CoreKind) (phase : Phase) (direction : Direction) (id : Int32) :
    Registration E :=
  Registration.of (.core kind) phase direction id

/-- The core packet types as one side of a connection registers them. -/
def coreEntries (side : Side) : List (Registration E) :=
  let up := side.serverbound
  let down := side.clientbound
  [ (coreEntry .handshake .handshake up 0).bounds 5
      (VarNum.intBytes + Limit.textBytes Limit.host + 2 + VarNum.intBytes),
    (coreEntry .statusRequest .status up 0).exact 0,
    (coreEntry .statusPing .status up 1).exact 8,
    ((coreEntry .statusResponse .status down 0).bounds 1
      (Limit.textBytes Limit.text)).preferred 512,
    (coreEntry .statusPong .status down 1).exact 8,
    (coreEntry .loginStart .login up 0).bounds 1 (Limit.textBytes Limit.username),
    (coreEntry .encryptionResponse .login up 1).bounds 2 (2 * (2 + Limit.token)),
    ((coreEntry .loginDisconnect .login down 0).bounds 1
      (Limit.textBytes Limit.text)).preferred 128,
    (coreEntry .encryptionRequest .login down 1).bounds 3
      (Limit.textBytes Limit.serverId + 2 + Limit.key + 2 + Limit.token),
    (coreEntry .loginSuccess .login down 2).bounds 2
      (Limit.textBytes Limit.uuidText + Limit.textBytes Limit.username),
    (coreEntry .setCompression .login down 3).bounds 1 VarNum.intBytes,
    (coreEntry .serverboundKeepAlive .play up 0).bounds 1 VarNum.intBytes,
    (coreEntry .clientboundKeepAlive .play down 0).bounds 1 VarNum.intBytes,
    ((coreEntry .playDisconnect .play down 0x40).bounds 1
      (Limit.textBytes Limit.text)).preferred 128 ]

/-- Adds the core packet types of a side. -/
def registerCore (registry : Registry E) (side : Side) : Except Fault Unit × Registry E :=
  registry.registerAll (coreEntries side)

/-- The registry with the core packet types alone. -/
def standard (side : Side) : Registry E :=
  (empty.registerCore side).2

end Registry
end PhaseWire
