import PhaseWire.Session.State

/-
# Calls — what everybody who holds a session can do

A call never waits.  What changes the connection is kept in order: in the
queue while there is no transport, then in the channel to the session's
own turns, and after the close it is dropped.

To close a session tells its listener, whose hook may call the session
again.  It finds the session closed by then, so a close within it only
says that it was not the first.
-/

namespace PhaseWire.Session

variable {E N : Type} [CustomPackets E]

def submit (session : Session E N) (command : Command E) : Session E N :=
  let session := session.log (.submitted command)
  match session.lifecycle with
  | .preparing => { session with queue := session.queue ++ [command] }
  | .active =>
    if session.activity.isOver then session.abandon command
    else { session with channel := session.channel ++ [command] }
  | .closed => session.abandon command

/-- A way to close a session: says whether this was the close that counts. -/
abbrev Closing (E N : Type) [CustomPackets E] :=
  (reason : String) → (graceful : Bool) → Session E N → Bool × Session E N

def silence (session : Session E N) : Nat :=
  session.surroundings.wall.nanos - session.lastHeard.nanos

/-- Closes the session if the peer was silent for longer than the limit, and says whether it was
not. -/
def checkAliveBy (close : Closing E N) (limit : Span) (session : Session E N) :
    Bool × Session E N :=
  if session.isClosed then (false, session)
  else if limit.nanos < session.silence then
    (false, (close Reason.timedOut false (session.count Metrics.keepaliveTimeout)).2)
  else (true, session)

/-- Answers a call, given a way to close. -/
def callBy (close : Closing E N) (session : Session E N) : Call E → Reply × Session E N
  | .send packet tag? =>
    match session.registry.ofPacket packet with
    | .error fault => (.outcome (.error fault), session)
    | .ok _ => (.outcome (.ok ()), session.submit (.send packet tag?))
  | .setPhase phase => (.outcome (.ok ()), session.submit (.setPhase phase))
  | .setThreshold threshold => (.outcome (.ok ()), session.submit (.setThreshold threshold))
  | .encrypt key =>
    if key.length = Limit.cipherKey then (.outcome (.ok ()), session.submit (.encrypt key))
    else (.outcome (.error (.keyLength key.length)), session)
  | .close reason graceful =>
    let (first, session) := close reason graceful session
    (.verdict first, session)
  | .checkAlive limit =>
    let (alive, session) := checkAliveBy close limit session
    (.verdict alive, session)

/-- Runs a hook, given a way to close. -/
def runHookBy (close : Closing E N) : Hook E N → Session E N → Session E N
  | .done, session => session
  | .note note next, session => runHookBy close next (session.log (.note note))
  | .look next, session => runHookBy close (next session.view) session
  | .call call next, session =>
    let (reply, session) := session.callBy close call
    runHookBy close (next reply) session

/-! ## Closing -/

def closeAgain : Closing E N :=
  fun _ _ session => (false, session)

/-- Marks the session closed and takes the commands that it kept. -/
def beginClose (session : Session E N) (reason : String) : List (Command E) × Session E N :=
  (session.queue,
    { session with lifecycle := .closed, reason? := some reason, queue := [] })

def announceClose (session : Session E N) (reason : String) : Session E N :=
  runHookBy closeAgain (session.listener.onClosed reason) (session.log (.closed reason))

/-- Closes the session for the given reason, and says whether it was open.  A graceful close does
not tell the listener. -/
def close : Closing E N := fun reason graceful session =>
  if session.isClosed then (false, session)
  else
    let (dropped, session) := session.beginClose reason
    let session := dropped.foldl abandon session
    let session := if graceful then session else session.announceClose reason
    (true, { session with cancelled := true })

/-! ## The calls themselves -/

/-- Closes the session, if it is open, and tells the listener. -/
def shut (session : Session E N) (reason : String) : Session E N :=
  (close reason false session).2

/-- Closes the session if the peer was silent for longer than the limit, and says whether it was
not. -/
def checkAlive (limit : Span) (session : Session E N) : Bool × Session E N :=
  checkAliveBy close limit session

def call (session : Session E N) (call : Call E) : Reply × Session E N :=
  session.callBy close call

def runHook (session : Session E N) (hook : Hook E N) : Session E N :=
  runHookBy close hook session

def attach (session : Session E N) (options : SessionOptions) : Except Fault Unit × Session E N :=
  if session.activity = .detached then
    (.ok (),
      { session with
        options
        codec := { session.codec with pipeline := .new options.maxFrame }
        activity := .starting })
  else (.error (.custom Reason.alreadyStarted), session)

end PhaseWire.Session
