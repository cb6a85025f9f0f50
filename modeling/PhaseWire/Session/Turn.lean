import PhaseWire.Deadline
import PhaseWire.Session.Script
import PhaseWire.Transport.Pipe

/-
# Turns — what a session does of its own

With a transport, a session carries out what was kept, and then waits for
one thing at a time: its close, a command, the keepalive timer or a frame,
in this order of preference.  After each it flushes what was written
before it waits again.  Once it is closed it drops the commands that are
left, tries to write its last bytes, and gives up its transport.

`turn` is the next such step, if there is one in the present surroundings.
Each step is atomic; what it calls in the listener happens within it.
-/

namespace PhaseWire.Session

variable {E N : Type} [CustomPackets E]

def readSize : Nat := 8192

/-! ## Commands and packets -/

def execute (session : Session E N) (command : Command E) : Session E N :=
  let session := session.log (.executed command)
  match command with
  | .send packet tag? => (session.write packet tag?).2
  | .setPhase phase => (session.setPhase phase).2
  | .setThreshold threshold => (session.setThreshold threshold).2
  | .encrypt key => (session.encrypt key).2

def fail (session : Session E N) (fault : Fault) : Session E N :=
  let counted :=
    if fault.byPeer then session.count Metrics.protocolError
    else session.count Metrics.connectionError
  counted.shut fault.message

def dispatch (session : Session E N) (packet : Packet E) : Session E N :=
  match runScript (session.listener.onPacket packet) (session.log (.packet packet)) with
  | (.ok (), session) => session
  | (.error fault, session) => session.shut fault.message

/-! ## Keepalive -/

/-- Whether the session has both keepalive packets, and so probes and answers. -/
def keepsAlive (session : Session E N) : Bool :=
  (session.registry.ofKind? (.core .clientboundKeepAlive)).isSome
    && (session.registry.ofKind? (.core .serverboundKeepAlive)).isSome

/-- Takes note of a sign of life.  The answer to the open probe settles it. -/
def hear (session : Session E N) (answer? : Option Int32) : Session E N :=
  { session with
    lastHeard := session.surroundings.wall
    probe? := if answer?.isSome && session.probe? = answer? then none else session.probe? }

def answerProbe (session : Session E N) (id : Int32) : Session E N :=
  ((session.hear none).write (.core (.serverboundKeepAlive id)) none).2

/-- Receives a packet.  The keepalives of the other side stay inside the session. -/
def receive (session : Session E N) (packet : Packet E) : Session E N :=
  if session.isClosed then session
  else if !session.keepsAlive then session.dispatch packet
  else match session.options.side, packet with
    | .server, .core (.serverboundKeepAlive id) => session.hear (some id)
    | .client, .core (.clientboundKeepAlive id) => session.answerProbe id
    | _, packet => session.dispatch packet

/-- Probes the peer with the random number at hand. -/
def probe (session : Session E N) : Session E N :=
  let id := session.surroundings.random
  ({ session with probe? := some id }.write (.core (.clientboundKeepAlive id)) none).2

/-- What a session does at a tick: in play it checks that the peer was heard of, and a server
probes. -/
def onTick (session : Session E N) : Session E N :=
  if session.codec.phase ≠ .play then session
  else match session.checkAlive session.options.keepaliveTimeout with
    | (false, session) => session
    | (true, session) => if session.options.side = .server then session.probe else session

/-- When the next tick is due after the present one, if a timer can be set for it. -/
def tickAfter? (session : Session E N) : Option Instant :=
  session.surroundings.timer.nextTick? session.nextTick session.options.keepaliveInterval

/-- When the first tick is due for a session that begins to wait, if a timer can be set for it. -/
def firstTick? (session : Session E N) : Option Instant :=
  session.surroundings.timer.firstTick? session.options.keepaliveInterval

/-- A timer cannot be set. -/
def crash (session : Session E N) (duplex : Duplex) : Session E N × Duplex :=
  ({ session with activity := .crashed, channel := [], tags := [] }, duplex.close)

/-! ## Flushing -/

/-- Starts the timer, and waits for the first time. -/
def firstWait (session : Session E N) (duplex : Duplex) : Session E N × Duplex :=
  match session.firstTick? with
  | some nextTick => ({ session with activity := .waiting, nextTick }, duplex)
  | none => session.crash duplex

/-- Goes on after a flush. -/
def proceed (session : Session E N) (duplex : Duplex) : Afterwards → Session E N × Duplex
  | .firstWait => session.firstWait duplex
  | .wait => ({ session with activity := .waiting }, duplex)
  | .shutdown =>
    let deadline := session.surroundings.timer.after session.options.closingLimit
    ({ session with activity := .shuttingDown deadline }, duplex)

def beginFlush (session : Session E N) (duplex : Duplex) (afterwards : Afterwards) :
    Session E N × Duplex :=
  if session.outgoing.isEmpty && session.tags.isEmpty then
    { session with reading := true }.proceed duplex afterwards
  else
    let limit :=
      if session.isClosed then session.options.closingLimit else session.options.keepaliveTimeout
    let flush : Flush :=
      ⟨session.surroundings.timer.after limit, session.isClosed, session.tags, afterwards⟩
    ({ session with activity := .flushing flush, tags := [] }, duplex)

/-- Tells everybody who waits for a flush how it went. -/
def completeAll (session : Session E N) (tags : List Tag) (result : Except Fault Unit) :
    Session E N :=
  tags.foldl (fun session tag => session.complete (some tag) result) session

def flushFailed (session : Session E N) (flush : Flush) (fault : Fault) : Session E N :=
  let session := session.completeAll flush.tags (.error .closed)
  if session.isClosed then session else session.fail fault

/-- Settles a flush that took too long.  An open session is closed for it. -/
def flushLate (session : Session E N) (flush : Flush) : Session E N :=
  let session :=
    if flush.closing then session
    else (session.count Metrics.keepaliveTimeout).shut Reason.timedOut
  session.flushFailed flush .timeout

/-- Settles a flush and goes on. -/
def endFlush (session : Session E N) (duplex : Duplex) (afterwards : Afterwards) :
    Session E N × Duplex :=
  { session with reading := true }.proceed duplex afterwards

/-! ## Steps -/

/-- The outcome of a step; `none` if the session has to wait. -/
abbrev Step (E N : Type) [CustomPackets E] := Option (Session E N × Duplex)

/-- Writes what fits, and settles the flush if that is all, or if it is cut short. -/
def flushStep (session : Session E N) (duplex : Duplex) (flush : Flush) : Step E N :=
  let (sent, count, duplex) := duplex.push session.outgoing
  let session := { session with outgoing := session.outgoing.drop count }
  match sent with
  | .error fault =>
    some ((session.flushFailed flush fault).endFlush duplex flush.afterwards)
  | .ok true => some ((session.completeAll flush.tags (.ok ())).endFlush duplex flush.afterwards)
  | .ok false =>
    if !flush.closing && session.cancelled then
      some ((session.flushFailed flush .closed).endFlush duplex flush.afterwards)
    else if flush.deadline ≤ session.surroundings.timer then
      some ((session.flushLate flush).endFlush duplex flush.afterwards)
    else if count = 0 then none
    else some (session, duplex)

/-- Gives up the transport. -/
def finish (session : Session E N) (duplex : Duplex) : Step E N :=
  some (({ session with activity := .finished }.count Metrics.ended), duplex.close)

/-- Writes what fits, and gives up the transport if that is all, or if it took too long. -/
def shutdownStep (session : Session E N) (duplex : Duplex) (deadline : Instant) : Step E N :=
  let (sent, count, duplex) := duplex.push session.outgoing
  let session := { session with outgoing := session.outgoing.drop count }
  match sent with
  | .error _ | .ok true => session.finish duplex
  | .ok false =>
    if deadline ≤ session.surroundings.timer then session.finish duplex
    else if count = 0 then none
    else some (session, duplex)

/-- Starts: becomes active and carries out what was kept, unless the session is closed. -/
def startStep (session : Session E N) (duplex : Duplex) : Step E N :=
  let session := session.count Metrics.established
  if session.lifecycle = .preparing then
    let kept := session.queue
    let session := kept.foldl execute { session with lifecycle := .active, queue := [] }
    some (session.beginFlush duplex .firstWait)
  else some (session.firstWait duplex)

/-- Ends: drops the commands that are left. -/
def endStep (session : Session E N) (duplex : Duplex) : Step E N :=
  let session := session.shut Reason.connectionClosed
  let left := session.channel
  some ((left.foldl abandon { session with channel := [] }).beginFlush duplex .shutdown)

/-- Looks for a frame among the bytes at hand and those that came in. -/
def frameStep (session : Session E N) (duplex : Duplex) (incoming : Bytes) : Step E N :=
  match session.codec.decode incoming with
  | (.ok (some packet), codec) =>
    some (({ session with codec, unseen := true }.receive packet).beginFlush duplex .wait)
  | (.error fault, codec) =>
    some (({ session with codec, unseen := false }.fail fault).beginFlush duplex .wait)
  | (.ok none, codec) =>
    let session := { session with codec, unseen := false }
    if session.inputEnded then
      some ((session.shut Reason.endOfStream).beginFlush duplex .wait)
    else some (session, duplex)

/-- How many bytes the next read takes at most: what is left of the read buffer, or all of it once
it is used up. -/
def readLimit (session : Session E N) : Nat :=
  if session.readRoom = 0 then readSize else session.readRoom

def readStep (session : Session E N) (duplex : Duplex) : Step E N :=
  let limit := session.readLimit
  match duplex.read limit with
  | (.bytes taken, duplex) =>
    { session with inputEnded := false, readRoom := limit - taken.length }.frameStep duplex taken
  | (.nothing, _) => none
  | (.ended, duplex) => { session with inputEnded := true }.frameStep duplex []
  | (.failed fault, duplex) => some ((session.fail fault).beginFlush duplex .wait)

/-- Does the first thing that an open session waits for. -/
def waitStep (session : Session E N) (duplex : Duplex) : Step E N :=
  match session.channel with
  | command :: channel =>
    some (({ session with channel }.execute command).beginFlush duplex .wait)
  | [] =>
    if session.keepsAlive && session.nextTick ≤ session.surroundings.timer then
      match session.tickAfter? with
      | some nextTick => some ({ session with nextTick }.onTick.beginFlush duplex .wait)
      | none => some (session.crash duplex)
    else if !session.reading then none
    else if session.unseen then session.frameStep duplex []
    else session.readStep duplex

def turn (session : Session E N) (duplex : Duplex) : Step E N :=
  match session.activity with
  | .detached | .finished | .crashed => none
  | .starting => session.startStep duplex
  | .flushing flush => session.flushStep duplex flush
  | .shuttingDown deadline => session.shutdownStep duplex deadline
  | .waiting =>
    if session.isClosed then session.endStep duplex else session.waitStep duplex

end PhaseWire.Session
