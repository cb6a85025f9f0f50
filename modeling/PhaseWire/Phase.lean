/-
# `Phase` — phases, directions and sides

A connection is always in exactly one phase, and the phase selects which
packet ids are known.  A direction is relative to the local end: a packet
that one end registers as outbound is inbound at the other.

    handshake ──┬──> status
                └──> login ──> play
-/

namespace PhaseWire

/-- Coarse stage of a connection. -/
inductive Phase
  | handshake
  | status
  | login
  | play
  deriving DecidableEq, Repr, Inhabited

namespace Phase

/-- Every phase, in the order in which a connection can meet them. -/
def all : List Phase := [.handshake, .status, .login, .play]

/-- The phase in running text and in data formats. -/
def name : Phase → String
  | handshake => "handshake"
  | status => "status"
  | login => "login"
  | play => "play"

/-- The phase as a title, used in diagnostics. -/
def title : Phase → String
  | handshake => "Handshake"
  | status => "Status"
  | login => "Login"
  | play => "Play"

/-- The phase that a data format names. -/
def ofName? (text : String) : Option Phase :=
  all.find? (fun phase => phase.name == text)

/-- A connection moves on along the arrows of the picture above; to stay is always allowed. -/
def canMoveTo : Phase → Phase → Bool
  | handshake, status => true
  | handshake, login => true
  | login, play => true
  | phase, next => phase == next

/-- The phase that a handshake's intent asks for. -/
def ofIntent? (intent : Int32) : Option Phase :=
  if intent = 1 then some status
  else if intent = 2 then some login
  else none

def intent? : Phase → Option Int32
  | status => some 1
  | login => some 2
  | handshake => none
  | play => none

end Phase

/-- Way of travel, seen from the local end. -/
inductive Direction
  | inbound
  | outbound
  deriving DecidableEq, Repr, Inhabited

namespace Direction

/-- The same travel seen from the other end. -/
def flip : Direction → Direction
  | inbound => outbound
  | outbound => inbound

/-- The direction as a title, used in diagnostics. -/
def title : Direction → String
  | inbound => "Inbound"
  | outbound => "Outbound"

@[simp] theorem flip_flip (direction : Direction) : direction.flip.flip = direction := by
  cases direction <;> rfl

end Direction

/-- Which end of the connection the local end is. -/
inductive Side
  | server
  | client
  deriving DecidableEq, Repr, Inhabited

namespace Side

/-- The other end. -/
def opposite : Side → Side
  | server => client
  | client => server

def title : Side → String
  | server => "Server"
  | client => "Client"

/-- Local direction of the packets that clients send. -/
def serverbound : Side → Direction
  | server => .inbound
  | client => .outbound

/-- Local direction of the packets that servers send. -/
def clientbound (side : Side) : Direction :=
  side.serverbound.flip

end Side
end PhaseWire
