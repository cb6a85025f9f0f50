import PhaseWire.Session.Turn

/-
# `Link` — a session and what stands at the other end

A link joins a session, the near one, to a far end over one transport in
memory.  The far end is another session or a bare `Peer`, which has a
codec but follows no protocol.

Time stands still while a link settles: the two sessions take turns until
both have to wait.  A session goes on for as long as it can before the
other one does.
-/

namespace PhaseWire

variable {E N : Type} [CustomPackets E]

/-- An end that follows no protocol. -/
structure Peer (E : Type) [CustomPackets E] where
  codec : ConnectionCodec E
  /-- Whether it has given up the transport. -/
  gone : Bool
  /-- The id of the last probe that it has read. -/
  lastProbe? : Option Int32

/-- What stands at the far end of a link. -/
inductive Far (E N : Type) [CustomPackets E]
  | session (session : Session E N)
  | peer (peer : Peer E)

/-- A session and what stands at the other end. -/
structure Link (E N : Type) [CustomPackets E] where
  near : Session E N
  far : Far E N
  /-- The transport as the near session sees it. -/
  duplex : Duplex
  /-- The clock of timers, in milliseconds. -/
  timer : Nat
  /-- How many steps were taken. -/
  steps : Nat
  /-- The random number of each step. -/
  random : Nat → Int32

namespace Peer

/-- A peer with the given packet types. -/
def new (registry : Registry E) : Peer E :=
  ⟨.new registry (.new Limit.frame), false, none⟩

end Peer

namespace Link

/-- The most steps that a link takes to settle. -/
def patience : Nat := 1000000

def new (near : Session E N) (far : Far E N) (capacity : Nat) (random : Nat → Int32) :
    Link E N :=
  ⟨near, far, .new capacity, 0, 0, random⟩

/-- What a session sees in the next step.  The wall clock never stands still. -/
def surroundings (link : Link E N) : Surroundings :=
  ⟨.ofMillis link.timer, .ofNanos (link.steps + 1), link.random link.steps⟩

def farSession? (link : Link E N) : Option (Session E N) :=
  match link.far with
  | .session session => some session
  | .peer _ => none

/-! ## Calls -/

def onNear {α : Type} (link : Link E N) (change : Session E N → α × Session E N) :
    α × Link E N :=
  let (answer, near) := change (link.near.within link.surroundings)
  (answer, { link with near, steps := link.steps + 1 })

def onFar {α : Type} (link : Link E N) (change : Session E N → α × Session E N) :
    Option (α × Link E N) :=
  link.farSession?.map fun session =>
    let (answer, session) := change (session.within link.surroundings)
    (answer, { link with far := .session session, steps := link.steps + 1 })

/-! ## Settling -/

/-- Takes a step of the near session, if there is one. -/
def nearStep (link : Link E N) : Option (Link E N) :=
  ((link.near.within link.surroundings).turn link.duplex).map fun (near, duplex) =>
    { link with near, duplex, steps := link.steps + 1 }

def farStep (link : Link E N) : Option (Link E N) :=
  link.farSession?.bind fun session =>
    ((session.within link.surroundings).turn link.duplex.flip).map fun (session, duplex) =>
      { link with far := .session session, duplex := duplex.flip, steps := link.steps + 1 }

/-- Takes steps for as long as there are any, and says whether there was one. -/
def exhaust (step : Link E N → Option (Link E N)) :
    (fuel : Nat) → (moved : Bool) → Link E N → Bool × Link E N
  | 0, moved, link => (moved, link)
  | fuel + 1, moved, link =>
    match step link with
    | none => (moved, link)
    | some link => exhaust step fuel true link

/-- Lets the two sessions go on in turns. -/
def alternate (first second : Link E N → Option (Link E N)) : (fuel : Nat) → Link E N → Link E N
  | 0, link => link
  | fuel + 1, link =>
    let (moved, link) := exhaust first patience false link
    let (movedToo, link) := exhaust second patience false link
    if moved || movedToo then alternate first second fuel link else link

/-- Lets both sessions go on until they have to wait. -/
def settle (link : Link E N) : Link E N :=
  alternate nearStep farStep patience link

def dueAt (session : Session E N) : Option Instant :=
  match session.activity with
  | .waiting => if session.keepsAlive then some session.nextTick else none
  | .flushing flush => some flush.deadline
  | .shuttingDown deadline => some deadline
  | _ => none

def farIsDueFirst (link : Link E N) : Bool :=
  match link.farSession?.bind dueAt, dueAt link.near with
  | some far, some near => far < near
  | _, _ => false

/-- Lets time pass at once, and settles, the session whose timer is due first before the other. -/
def advance (link : Link E N) (milliseconds : Nat) : Link E N :=
  let later := { link with timer := link.timer + milliseconds }
  if link.farIsDueFirst then alternate farStep nearStep patience later else later.settle

end Link
end PhaseWire
