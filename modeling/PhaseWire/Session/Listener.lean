import PhaseWire.Session.Request

/-
# `Listener` — what an application does when a session calls it

A listener answers a packet with a `Script` and a notification with a
`Hook`.  Both are programs as data: each step is a request with the rest
of the program as a function of its answer.  So every terminating
behaviour is a listener, also one that calls back into its own session,
and a session that runs it is still a total function.

A session writes a history of events.  A program can put notes of its own
there and look at the whole, which gives it a memory.
-/

namespace PhaseWire

/-- Whether a session takes part in traffic. -/
inductive Lifecycle
  /-- Requests are kept until there is a transport. -/
  | preparing
  | active
  | closed
  deriving DecidableEq, Repr, Inhabited

namespace Lifecycle

def name : Lifecycle → String
  | preparing => "preparing"
  | active => "active"
  | closed => "closed"

end Lifecycle

/-- Something that happened to a session; `N` is the type of notes. -/
inductive Event (E N : Type)
  | submitted (command : Command E)
  | executed (command : Command E)
  | abandoned (command : Command E)
  /-- A packet was encoded for sending. -/
  | written (packet : Packet E)
  /-- The sender of a packet was told what became of it. -/
  | completed (tag : Tag) (result : Except Fault Unit)
  | packet (packet : Packet E)
  /-- The listener was told of a new phase. -/
  | phase (phase : Phase)
  /-- The listener was told of the close. -/
  | closed (reason : String)
  /-- A program of the listener made a note. -/
  | note (note : N)

/-- What a program sees when it looks at its session. -/
structure View (E N : Type) where
  lifecycle : Lifecycle
  phase : Phase
  reason? : Option String
  /-- How many requests wait for a transport. -/
  queued : Nat
  /-- The phase in which packets are encoded and decoded. -/
  codecPhase : Phase
  encrypted : Bool
  /-- The threshold of the compressor, if there is one. -/
  threshold? : Option Nat
  /-- The threshold that the options give, unless they do not compress. -/
  configured? : Option Int32
  events : List (Event E N)

/-- A program that runs at a notification. -/
inductive Hook (E N : Type)
  | done
  | note (note : N) (next : Hook E N)
  | look (next : View E N → Hook E N)
  | call (call : Call E) (next : Reply → Hook E N)

/-- A program that runs for a packet.  To end with a fault closes the session. -/
inductive Script (E N : Type)
  | done (result : Except Fault Unit)
  | note (note : N) (next : Script E N)
  | look (next : View E N → Script E N)
  | act (action : Action E) (next : Reply → Script E N)

/-- An application's side of a session. -/
structure Listener (E N : Type) where
  onPacket : Packet E → Script E N
  onPhase : Phase → Hook E N
  onClosed : String → Hook E N

namespace Listener

variable {E N : Type}

/-- Does nothing. -/
def idle : Listener E N where
  onPacket _ := .done (.ok ())
  onPhase _ := .done
  onClosed _ := .done

/-- Handles packets by their types.  Of two rules for one type the later counts, and a packet
without a rule is dropped. -/
def ofRules [CustomPackets E] (rules : List (PacketKind E × (Packet E → Script E N)))
    (onPhase : Phase → Hook E N) (onClosed : String → Hook E N) : Listener E N where
  onPacket packet :=
    match rules.reverse.find? (fun rule => rule.1 = packet.kind) with
    | some (_, handler) => handler packet
    | none => .done (.ok ())
  onPhase := onPhase
  onClosed := onClosed

end Listener
end PhaseWire
