import PhaseWire.Instant
import PhaseWire.Packet.Custom

/-
# Requests — what one can ask of a session

A `Call` can be made by everybody who holds a session.  A call that
changes the connection becomes a `Command`, which the session carries out
in its own time.  An `Action` is made by a listener while the session
waits for it, and takes effect at once.
-/

namespace PhaseWire

/-- The name under which a sender hears what became of a packet. -/
abbrev Tag := String

/-- Work for the session, in the order of the calls that asked for it. -/
inductive Command (E : Type)
  | send (packet : Packet E) (tag? : Option Tag)
  | setPhase (phase : Phase)
  | setThreshold (threshold : Int32)
  | encrypt (key : Bytes)

/-- The name under which somebody waits for the outcome of a command. -/
def Command.tag? {E : Type} : Command E → Option Tag
  | send _ tag? => tag?
  | _ => none

/-- What a holder of a session can ask for. -/
inductive Call (E : Type)
  | send (packet : Packet E) (tag? : Option Tag)
  | setPhase (phase : Phase)
  /-- Compress from this size on; a negative size means no compression. -/
  | setThreshold (threshold : Int32)
  | encrypt (key : Bytes)
  /-- A graceful close does not tell the listener. -/
  | close (reason : String) (graceful : Bool)
  /-- Close the session if the peer was silent for longer than this. -/
  | checkAlive (limit : Span)

/-- What a listener can do in its turn. -/
inductive Action (E : Type)
  | send (packet : Packet E) (tag? : Option Tag)
  | setPhase (phase : Phase)
  | setThreshold (threshold : Int32)
  /-- Compress from the size on that the options give. -/
  | enableCompression
  | encrypt (key : Bytes)
  /-- Anything that a holder can ask for. -/
  | call (call : Call E)

/-- The answer to a call or an action. -/
inductive Reply
  | outcome (result : Except Fault Unit)
  | verdict (answer : Bool)
  | threshold (result : Except Fault (Option Int32))

def Reply.fault? : Reply → Option Fault
  | outcome (.error fault) => some fault
  | threshold (.error fault) => some fault
  | _ => none

end PhaseWire
