import PhaseWire.Packet.Core

/-
# `Packet` — core packets and those of an application

An application adds packet types of its own by an instance of
`CustomPackets`: their kinds, and how each kind reads and writes its
fields.  A packet is then a core packet or one of the application's, and
everything above (registry, codec, session) works on `Packet E`.
-/

namespace PhaseWire

/-- The packet types that an application adds to the core ones. -/
class CustomPackets (E : Type) where
  /-- The added types. -/
  Kind : Type
  /-- Types can be told apart. -/
  decideKind : DecidableEq Kind
  /-- Full name of a type, used in diagnostics. -/
  typeName : Kind → String
  kind : E → Kind
  /-- Reads the fields of a packet of the given type. -/
  read : Kind → Reader E
  /-- The fields of a packet in bytes, or why the packet cannot be written. -/
  write : E → Except Fault Bytes

instance {E : Type} [CustomPackets E] : DecidableEq (CustomPackets.Kind E) :=
  CustomPackets.decideKind

/-- No added packet types. -/
instance : CustomPackets Empty where
  Kind := Empty
  decideKind := inferInstance
  typeName := Empty.elim
  kind := id
  read := Empty.elim
  write := Empty.elim

inductive PacketKind (E : Type) [CustomPackets E]
  | core (kind : CoreKind)
  | custom (kind : CustomPackets.Kind E)

instance {E : Type} [CustomPackets E] : DecidableEq (PacketKind E)
  | .core kind, .core other =>
    decidable_of_iff (kind = other) (by simp)
  | .custom kind, .custom other =>
    decidable_of_iff (kind = other) (by simp)
  | .core _, .custom _ => isFalse nofun
  | .custom _, .core _ => isFalse nofun

inductive Packet (E : Type)
  | core (packet : CorePacket)
  | custom (packet : E)
  deriving DecidableEq, Inhabited

variable {E : Type} [CustomPackets E]

/-- Full name of a type, used in diagnostics. -/
def PacketKind.typeName : PacketKind E → String
  | .core kind => kind.typeName
  | .custom kind => CustomPackets.typeName kind

namespace Packet

def kind : Packet E → PacketKind E
  | .core packet => .core packet.kind
  | .custom packet => .custom (CustomPackets.kind packet)

def typeName (packet : Packet E) : String :=
  packet.kind.typeName

def write : Packet E → Except Fault Bytes
  | .core packet => .ok packet.write
  | .custom packet => CustomPackets.write packet

/-- Reads the fields of a packet of the given type. -/
def read : PacketKind E → Reader (Packet E)
  | .core kind => return .core (← CorePacket.read kind)
  | .custom kind => return .custom (← CustomPackets.read kind)

end Packet
end PhaseWire
