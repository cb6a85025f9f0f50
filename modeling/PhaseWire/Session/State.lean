import PhaseWire.Codec.Connection
import PhaseWire.Session.Listener
import PhaseWire.Session.Options

/-
# `Session` — one end of a connection

A session is created without a transport and keeps requests until it gets
one.  Then it is active until it is closed, by a call, by its listener, by
a fault or by the end of the stream.  It is closed once and for one
reason.

All of it is one value.  What is done to it comes in atomic steps: calls
from outside, and turns of its own.  Between two steps anything may happen
outside, which a session sees as its surroundings and its transport.
-/

namespace PhaseWire

variable {E N : Type} [CustomPackets E]

/-- What a session sees of the world during a step. -/
structure Surroundings where
  /-- The clock of timers. -/
  timer : Instant
  /-- The clock by which silence is measured. -/
  wall : Instant
  /-- A random number. -/
  random : Int32
  deriving DecidableEq, Repr, Inhabited

inductive Afterwards
  /-- The first wait; the flush was for what had been kept. -/
  | firstWait
  | wait
  /-- The end of the connection. -/
  | shutdown
  deriving DecidableEq, Repr

/-- An attempt to get rid of everything that was written. -/
structure Flush where
  deadline : Instant
  /-- Whether the session was closed when it began; then a close does not cut it short. -/
  closing : Bool
  /-- Who waits for it. -/
  tags : List Tag
  afterwards : Afterwards
  deriving DecidableEq, Repr

/-- What a session is about to do of its own. -/
inductive Activity
  /-- There is no transport. -/
  | detached
  /-- There is a transport, and nothing was done with it. -/
  | starting
  | waiting
  | flushing (flush : Flush)
  | shuttingDown (deadline : Instant)
  /-- Everything is done and the transport is given up. -/
  | finished
  /-- The transport is given up before everything was done. -/
  | crashed
  deriving DecidableEq, Repr

/-- Whether nothing will be done any more. -/
def Activity.isOver : Activity → Bool
  | finished | crashed => true
  | _ => false

/-- One end of a connection. -/
structure Session (E N : Type) [CustomPackets E] where
  listener : Listener E N
  options : SessionOptions
  surroundings : Surroundings
  lifecycle : Lifecycle
  /-- The phase that was last announced. -/
  phase : Phase
  /-- Commands that wait for a transport. -/
  queue : List (Command E)
  /-- Commands that wait for the session's turn. -/
  channel : List (Command E)
  reason? : Option String
  /-- Whether the close is complete. -/
  cancelled : Bool
  /-- When the peer was last known to be there. -/
  lastHeard : Instant
  /-- The probe that has not been answered. -/
  probe? : Option Int32
  codec : ConnectionCodec E
  /-- Encoded frames on their way to the transport. -/
  outgoing : Bytes
  /-- Who waits for the next flush. -/
  tags : List Tag
  /-- Whether frames may be taken in; not before a frame of a new phase is flushed. -/
  reading : Bool
  /-- Whether bytes came in that nobody has looked at. -/
  unseen : Bool
  /-- Whether the end of the stream was met. -/
  inputEnded : Bool
  /-- How many more bytes the read buffer takes before it is used afresh. -/
  readRoom : Nat
  activity : Activity
  /-- When the next keepalive is due. -/
  nextTick : Instant
  /-- What has happened so far. -/
  events : List (Event E N)

namespace Session

/-- A session without a transport. -/
def new (registry : Registry E) (listener : Listener E N) : Session E N where
  listener := listener
  options := .standard .server
  surroundings := default
  lifecycle := .preparing
  phase := .handshake
  queue := []
  channel := []
  reason? := none
  cancelled := false
  lastHeard := default
  probe? := none
  codec := .new registry (.new Limit.frame)
  outgoing := []
  tags := []
  reading := true
  unseen := false
  inputEnded := false
  readRoom := 0
  activity := .detached
  nextTick := default
  events := []

/-- The packet types of the session. -/
def registry (session : Session E N) : Registry E :=
  session.codec.registry

def metrics (session : Session E N) : Metrics :=
  session.codec.metrics

def isClosed (session : Session E N) : Bool :=
  session.lifecycle = .closed

/-- What a program sees. -/
def view (session : Session E N) : View E N where
  lifecycle := session.lifecycle
  phase := session.phase
  reason? := session.reason?
  queued := session.queue.length
  codecPhase := session.codec.phase
  encrypted := session.codec.pipeline.isEncrypted
  threshold? := session.codec.pipeline.compressor?.map Compressor.threshold
  configured? := session.options.threshold?
  events := session.events

def within (session : Session E N) (surroundings : Surroundings) : Session E N :=
  { session with surroundings }

def log (session : Session E N) (event : Event E N) : Session E N :=
  { session with events := session.events ++ [event] }

def count (session : Session E N) (change : Metrics → Metrics) : Session E N :=
  { session with codec := { session.codec with metrics := change session.codec.metrics } }

/-- Tells whoever waits for it what became of a packet. -/
def complete (session : Session E N) (tag? : Option Tag) (result : Except Fault Unit) :
    Session E N :=
  match tag? with
  | some tag => session.log (.completed tag result)
  | none => session

def abandon (session : Session E N) (command : Command E) : Session E N :=
  (session.log (.abandoned command)).complete command.tag? (.error .closed)

end Session
end PhaseWire
