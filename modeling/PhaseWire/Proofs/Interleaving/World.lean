import PhaseWire.Proofs.Interleaving.Job

/-
# `World` — a session among other threads

A world is a session with its transport, the jobs of the session's present
turn, and threads that hold the session.  A thread is what is left of a
program.  A `Move` lets one of them go one step further, and the schedule,
a list of moves, is arbitrary: any number of threads can be started at any
time, a thread or the session's own turn can be left alone for as long as
one likes, and clocks and transport change as they please.

A session that waits is not told whether a close came in before it looks
at its commands, its timer or its transport, so each of them can be picked
at any time.  A move that cannot be made changes nothing.
-/

namespace PhaseWire

/-- What a session goes on with when its jobs are done. -/
inductive Sequel
  /-- Flush what was written. -/
  | flush (afterwards : Afterwards)
  /-- Leave a flush that is settled. -/
  | goOn (afterwards : Afterwards)
  /-- Drop the commands that are left. -/
  | dropLeft
  deriving DecidableEq, Repr

/-- What a session attends to, of the things that it waits for. -/
inductive Pick
  /-- The close. -/
  | stop
  | command
  /-- The timer. -/
  | tick
  /-- The transport. -/
  | input
  deriving DecidableEq, Repr

/-- A session in the middle of everything. -/
structure World (E N : Type) [CustomPackets E] where
  session : Session E N
  duplex : Duplex
  /-- What is left of the session's turn. -/
  jobs : List (Job E N)
  sequel? : Option Sequel
  /-- What is left of the programs of those who hold the session. -/
  threads : List (List (Errand E N))
  record : Record

inductive Move (E N : Type)
  /-- Somebody begins a program. -/
  | spawn (program : Hook E N)
  /-- The thread of this index goes on. -/
  | thread (index : Nat)
  | attach (options : SessionOptions) (duplex : Duplex)
  | surround (surroundings : Surroundings)
  | transport (duplex : Duplex)
  /-- The session goes on. -/
  | drive (pick : Pick)

namespace World

variable {E N : Type} [CustomPackets E]

/-- A session without a transport, and nobody who does anything with it. -/
def new (registry : Registry E) (listener : Listener E N) : World E N :=
  ⟨.new registry listener, .new 0, [], none, [], .new⟩

/-! ## The session's turns -/

/-- Begins a turn of some jobs. -/
def assign (world : World E N) (jobs : List (Job E N)) (sequel : Sequel) : World E N :=
  { world with jobs, sequel? := some sequel }

/-- Puts a session and a transport in the place of the present ones. -/
def become (world : World E N) (next : Session E N × Duplex) : World E N :=
  { world with session := next.1, duplex := next.2 }

/-- Starts: becomes active and takes what was kept, unless the session is closed. -/
def startTurn (world : World E N) : World E N :=
  let session := world.session.count Metrics.established
  if session.lifecycle = .preparing then
    { world with session := { session with lifecycle := .active, queue := [] } }.assign
      (session.queue.map .execute) (.flush .firstWait)
  else world.become (session.firstWait world.duplex)

/-- Looks for a frame among the bytes at hand and those that came in. -/
def takeFrame (world : World E N) (incoming : Bytes) : World E N :=
  match world.session.codec.decode incoming with
  | (.ok (some packet), codec) =>
    { world with session := { world.session with codec, unseen := true } }.assign
      [.receive packet] (.flush .wait)
  | (.error fault, codec) =>
    { world with session := { world.session with codec, unseen := false } }.assign
      [.fail fault] (.flush .wait)
  | (.ok none, codec) =>
    let world := { world with session := { world.session with codec, unseen := false } }
    if world.session.inputEnded then
      world.assign [.errand (.close Reason.endOfStream false)] (.flush .wait)
    else world

def takeInput (world : World E N) : World E N :=
  let limit := world.session.readLimit
  match world.duplex.read limit with
  | (.bytes taken, duplex) =>
    takeFrame { world with
      session := { world.session with inputEnded := false, readRoom := limit - taken.length }
      duplex } taken
  | (.nothing, _) => world
  | (.ended, duplex) =>
    takeFrame { world with session := { world.session with inputEnded := true }, duplex } []
  | (.failed fault, duplex) => { world with duplex }.assign [.fail fault] (.flush .wait)

/-- Attends to one of the things that an open session waits for. -/
def waitTurn (world : World E N) : Pick → World E N
  | .stop =>
    if world.session.isClosed then
      world.assign [.errand (.close Reason.connectionClosed false)] .dropLeft
    else world
  | .command =>
    match world.session.channel with
    | command :: channel =>
      let (jobs, session) := { world.session with channel }.runJob (.execute command)
      { world with session }.assign jobs (.flush .wait)
    | [] => world
  | .tick =>
    if world.session.keepsAlive && world.session.nextTick ≤ world.session.surroundings.timer then
      match world.session.tickAfter? with
      | some nextTick =>
        { world with session := { world.session with nextTick } }.assign [.tick] (.flush .wait)
      | none => world.become (world.session.crash world.duplex)
    else world
  | .input =>
    if !world.session.reading then world
    else if world.session.unseen then world.takeFrame []
    else world.takeInput

/-- Hands bytes to the transport. -/
def hand (world : World E N) (count : Nat) (duplex : Duplex) : World E N :=
  { world with
    session := { world.session with outgoing := world.session.outgoing.drop count }
    duplex
    record := world.record.hand (world.session.outgoing.take count) }

/-- Tells everybody who waits for a flush how it went. -/
def tell (tags : List Tag) (result : Except Fault Unit) : List (Job E N) :=
  tags.map fun tag => .complete (some tag) result

def bury (flush : Flush) (fault : Fault) : List (Job E N) :=
  tell flush.tags (.error .closed) ++ [Job.failIfOpen fault]

def settleFailed (world : World E N) (flush : Flush) (fault : Fault) : World E N :=
  world.assign (bury flush fault) (.goOn flush.afterwards)

/-- Settles a flush that took too long. -/
def settleLate (world : World E N) (flush : Flush) : World E N :=
  if flush.closing then world.settleFailed flush .timeout
  else
    { world with session := world.session.count Metrics.keepaliveTimeout }.assign
      (.errand (.close Reason.timedOut false) :: bury flush .timeout) (.goOn flush.afterwards)

def settleDone (world : World E N) (flush : Flush) : World E N :=
  { world with record := world.record.flush }.assign (tell flush.tags (.ok ()))
    (.goOn flush.afterwards)

/-- Writes what fits, and when all is written asks the transport whether it is on its way. -/
def flushWrite (world : World E N) (flush : Flush) : World E N :=
  if world.session.outgoing.isEmpty then
    match world.duplex.flush with
    | .error fault => world.settleFailed flush fault
    | .ok true => world.settleDone flush
    | .ok false => world
  else match world.duplex.write world.session.outgoing with
    | .error fault => world.settleFailed flush fault
    | .ok (count, duplex) => world.hand count duplex

/-- Goes on with a flush, or cuts it short. -/
def flushTurn (world : World E N) (flush : Flush) : Pick → World E N
  | .stop =>
    if !flush.closing && world.session.cancelled then world.settleFailed flush .closed else world
  | .tick =>
    if flush.deadline ≤ world.session.surroundings.timer then world.settleLate flush else world
  | .command | .input => world.flushWrite flush

def finish (world : World E N) : World E N :=
  { world with
    session := { world.session with activity := .finished }.count Metrics.ended
    duplex := world.duplex.close }

/-- Writes what fits, and gives up the transport if all is on its way or if it took too long. -/
def shutdownTurn (world : World E N) (deadline : Instant) : Pick → World E N
  | .tick => if deadline ≤ world.session.surroundings.timer then world.finish else world
  | _ =>
    if world.session.outgoing.isEmpty then
      match world.duplex.flush with
      | .ok false => world
      | _ => world.finish
    else match world.duplex.write world.session.outgoing with
      | .error _ => world.finish
      | .ok (count, duplex) => world.hand count duplex

def turn (world : World E N) (pick : Pick) : World E N :=
  match world.session.activity with
  | .detached | .finished | .crashed => world
  | .starting => world.startTurn
  | .waiting => world.waitTurn pick
  | .flushing flush => world.flushTurn flush pick
  | .shuttingDown deadline => world.shutdownTurn deadline pick

/-- Goes on when the jobs of a turn are done. -/
def conclude (world : World E N) : Sequel → World E N
  | .flush afterwards =>
    { world with sequel? := none }.become (world.session.beginFlush world.duplex afterwards)
  | .goOn afterwards =>
    { world with sequel? := none }.become (world.session.endFlush world.duplex afterwards)
  | .dropLeft =>
    match world.session.channel with
    | command :: channel =>
      { world with session := { world.session with channel }.abandon command }
    | [] => { world with sequel? := none }.become (world.session.beginFlush world.duplex .shutdown)

/-- Goes on with the session's work. -/
def drive (world : World E N) (pick : Pick) : World E N :=
  match world.jobs, world.sequel? with
  | job :: rest, _ =>
    let (jobs, session) := world.session.runJob job
    { world with session, jobs := jobs ++ rest, record := world.record.note world.session job }
  | [], some sequel => world.conclude sequel
  | [], none => world.turn pick

/-! ## Moves -/

def runThread (world : World E N) (index : Nat) : World E N :=
  match world.threads[index]? with
  | some (errand :: rest) =>
    let (errands, session) := world.session.runErrand errand
    { world with session, threads := world.threads.set index (errands ++ rest) }
  | _ => world

def step (world : World E N) : Move E N → World E N
  | .spawn program => { world with threads := world.threads ++ [[.hook program]] }
  | .thread index => world.runThread index
  | .attach options duplex =>
    match world.session.attach options with
    | (.ok (), session) => { world with session, duplex }
    | (.error _, _) => world
  | .surround surroundings => { world with session := world.session.within surroundings }
  | .transport duplex => { world with duplex }
  | .drive pick => world.drive pick

/-- Makes moves, one after another. -/
def run (world : World E N) (moves : List (Move E N)) : World E N :=
  moves.foldl step world

theorem run_append (world : World E N) (moves more : List (Move E N)) :
    world.run (moves ++ more) = (world.run moves).run more :=
  List.foldl_append

/-- What every one of the moves preserves, the run preserves. -/
theorem run_preserves {P : World E N → Prop} (moves : List (Move E N))
    (hP : ∀ move ∈ moves, ∀ world, P world → P (world.step move)) :
    ∀ world, P world → P (world.run moves) := by
  -- The world is general, since each move leaves another one behind.
  induction moves with
  | nil =>
      intro world h
      exact h
  | cons move moves ih =>
      intro world h
      have hrest := ih fun move hmove => hP move (List.mem_cons_of_mem _ hmove)
      exact hrest (world.step move) (hP move List.mem_cons_self world h)

/-! ## What is seen of a run -/

section

variable {Seen : Type} (look : World E N → Move E N → Option Seen)

/-- What is seen of the moves of a run, of each as it is made. -/
def gather : World E N → List (Move E N) → List Seen
  | _, [] => []
  | world, move :: moves => (look world move).toList ++ gather (world.step move) moves

theorem gather_append (moves more : List (Move E N)) : ∀ world : World E N,
    gather look world (moves ++ more)
      = gather look world moves ++ gather look (world.run moves) more := by
  induction moves with
  | nil =>
      intro world
      rfl
  | cons move moves ih =>
      intro world
      rw [List.cons_append, gather, gather, ih, List.append_assoc]
      rfl

/-- What every move preserves of the world and of what was seen, the run preserves. -/
theorem gather_preserves {P : World E N → List Seen → Prop}
    (hP : ∀ move world seen, P world seen → P (world.step move) (seen ++ (look world move).toList))
    (moves : List (Move E N)) : ∀ world seen, P world seen →
    P (world.run moves) (seen ++ gather look world moves) := by
  induction moves with
  | nil =>
      intro world seen h
      rw [gather, List.append_nil]
      exact h
  | cons move moves ih =>
      intro world seen h
      have hrest := ih _ _ (hP move world seen h)
      rw [List.append_assoc] at hrest
      exact hrest

end

end World
end PhaseWire
