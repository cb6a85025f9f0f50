import PhaseWire.Session.State

/-
# `Books` — what a session owes

The books of a session are the part of it that says where its commands are
and whom it has to tell what became of a packet: the two lists of commands
that wait, the frames on their way and who waits for them, and what the
history tells of commands and completions.  Most of what is done to a
session leaves its books as they are, and the lemmas below say so.
-/

namespace PhaseWire

variable {E N : Type} [CustomPackets E]

/-! ## The history -/

namespace Event

def submitted? : Event E N → Option (Command E)
  | submitted command => some command
  | _ => none

def executed? : Event E N → Option (Command E)
  | executed command => some command
  | _ => none

def abandoned? : Event E N → Option (Command E)
  | abandoned command => some command
  | _ => none

/-- Who was told what became of a packet. -/
def completed? : Event E N → Option (Tag × Except Fault Unit)
  | completed tag result => some (tag, result)
  | _ => none

/-- The listener was given a packet. -/
def packet? {E N : Type} : Event E N → Option (Packet E)
  | packet received => some received
  | _ => none

end Event

/-! ## The books -/

/-- Where the commands are, and who has to be told. -/
structure Books (E : Type) [CustomPackets E] where
  lifecycle : Lifecycle
  activity : Activity
  options : SessionOptions
  registry : Registry E
  queue : List (Command E)
  channel : List (Command E)
  outgoing : Bytes
  tags : List Tag
  submitted : List (Command E)
  executed : List (Command E)
  abandoned : List (Command E)
  completed : List (Tag × Except Fault Unit)

/-- What an outcome adds to the history of completions. -/
def completions (tag? : Option Tag) (result : Except Fault Unit) :
    List (Tag × Except Fault Unit) :=
  tag?.toList.map fun tag => (tag, result)

def Books.abandon (books : Books E) (command : Command E) : Books E :=
  { books with
    abandoned := books.abandoned ++ [command]
    completed := books.completed ++ completions command.tag? (.error .closed) }

namespace Session

def books (session : Session E N) : Books E where
  lifecycle := session.lifecycle
  activity := session.activity
  options := session.options
  registry := session.registry
  queue := session.queue
  channel := session.channel
  outgoing := session.outgoing
  tags := session.tags
  submitted := session.events.filterMap Event.submitted?
  executed := session.events.filterMap Event.executed?
  abandoned := session.events.filterMap Event.abandoned?
  completed := session.events.filterMap Event.completed?

theorem isClosed_iff {session : Session E N} :
    session.isClosed = true ↔ session.books.lifecycle = .closed := by
  rw [isClosed, decide_eq_true_iff]
  rfl

variable (session : Session E N)

@[simp] theorem books_count (change : Metrics → Metrics) :
    (session.count change).books = session.books := rfl

@[simp] theorem books_log_submitted (command : Command E) :
    (session.log (.submitted command)).books
      = { session.books with submitted := session.books.submitted ++ [command] } := by
  simp [books, log, registry, Event.submitted?, Event.executed?, Event.abandoned?, Event.completed?]

@[simp] theorem books_log_executed (command : Command E) :
    (session.log (.executed command)).books
      = { session.books with executed := session.books.executed ++ [command] } := by
  simp [books, log, registry, Event.submitted?, Event.executed?, Event.abandoned?, Event.completed?]

@[simp] theorem books_log_abandoned (command : Command E) :
    (session.log (.abandoned command)).books
      = { session.books with abandoned := session.books.abandoned ++ [command] } := by
  simp [books, log, registry, Event.submitted?, Event.executed?, Event.abandoned?, Event.completed?]

@[simp] theorem books_log_completed (tag : Tag) (result : Except Fault Unit) :
    (session.log (.completed tag result)).books
      = { session.books with completed := session.books.completed ++ [(tag, result)] } := by
  simp [books, log, registry, Event.submitted?, Event.executed?, Event.abandoned?, Event.completed?]

theorem books_log {event : Event E N} (hsubmitted : event.submitted? = none)
    (hexecuted : event.executed? = none) (habandoned : event.abandoned? = none)
    (hcompleted : event.completed? = none) : (session.log event).books = session.books := by
  simp [books, log, registry, hsubmitted, hexecuted, habandoned, hcompleted]

@[simp] theorem books_complete (tag? : Option Tag) (result : Except Fault Unit) :
    (session.complete tag? result).books
      = { session.books with
          completed := session.books.completed ++ completions tag? result } := by
  cases tag? with
  | none => simp [complete, completions]
  | some tag => simp [complete, completions]

@[simp] theorem books_abandon (command : Command E) :
    (session.abandon command).books = session.books.abandon command := by
  simp [abandon, Books.abandon]

end Session
end PhaseWire
