import PhaseWire.Proofs.Session.Books
import PhaseWire.Session.Call

/-
# Calls, one critical section at a time

A call looks at a session and changes it under a lock; it calls the
application only when it has let go of the lock, and other calls may come
in between.  `enterCall` is what a call does under its first lock: it
fixes the reply and leaves errands, each of which is one more critical
section or one callback.  A program of the application is an errand too,
and so are all the calls it makes.

Errands that are run without interruption do what `call` and `runHook` do
in one go (`settles_call`, `settles_runHook`).
-/

namespace PhaseWire

/-! ## Work without interruption -/

section

variable {State Piece : Type}

/-- Pieces of work that are done one after another, with nothing in between, lead from one state
to the other.  What is left of a piece is done next. -/
inductive Settles (run : State → Piece → List Piece × State) : List Piece → State → State → Prop
  | nil (state : State) : Settles run [] state state
  | cons {piece : Piece} {rest : List Piece} {state last : State} :
      Settles run ((run state piece).1 ++ rest) (run state piece).2 last →
      Settles run (piece :: rest) state last

namespace Settles

variable {run : State → Piece → List Piece × State} {pieces rest : List Piece}
  {state next last : State}

theorem append (h : Settles run pieces state next) (hrest : Settles run rest next last) :
    Settles run (pieces ++ rest) state last := by
  induction h with
  | nil state => exact hrest
  | cons h ih =>
      have hnext := ih hrest
      rw [List.append_assoc] at hnext
      exact .cons hnext

/-- What every piece preserves, all of them preserve. -/
theorem preserves {P : State → Prop} (hP : ∀ piece state, P state → P (run state piece).2)
    (h : Settles run pieces state last) : P state → P last := by
  induction h with
  | nil state => exact id
  | cons h ih => exact fun hstate => ih (hP _ _ hstate)

theorem map {Whole : Type} {runWhole : State → Whole → List Whole × State} {f : Piece → Whole}
    (hf : ∀ state piece,
      runWhole state (f piece) = ((run state piece).1.map f, (run state piece).2))
    (h : Settles run pieces state last) : Settles runWhole (pieces.map f) state last := by
  induction h with
  | nil state => exact .nil state
  | @cons piece rest state last h ih =>
      refine .cons ?_
      rw [hf, ← List.map_append]
      exact ih

end Settles

end

/-! ## Errands -/

variable {E N : Type}

/-- What a call still has to do when it has let go of the lock. -/
inductive Errand (E N : Type)
  /-- Tell the sender of a command that it was dropped. -/
  | abandon (command : Command E)
  /-- Tell the listener of the close. -/
  | announce (reason : String)
  /-- Run the rest of a program. -/
  | hook (rest : Hook E N)
  /-- Tell everybody who waits for it that the close is complete. -/
  | cancel
  /-- Close the session, if it is open. -/
  | close (reason : String) (graceful : Bool)

def Errand.dropped? : Errand E N → Option (Command E)
  | abandon command => some command
  | _ => none

def droppedBy (errands : List (Errand E N)) : List (Command E) :=
  errands.filterMap Errand.dropped?

@[simp] theorem droppedBy_nil : droppedBy ([] : List (Errand E N)) = [] := rfl

@[simp] theorem droppedBy_append (errands rest : List (Errand E N)) :
    droppedBy (errands ++ rest) = droppedBy errands ++ droppedBy rest :=
  List.filterMap_append

@[simp] theorem droppedBy_abandons (commands : List (Command E)) :
    droppedBy (commands.map (Errand.abandon (N := N))) = commands := by
  rw [droppedBy, List.filterMap_map]
  exact List.filterMap_some

theorem filterMap_set {Chosen : Type} (choose : Errand E N → Option Chosen)
    {threads : List (List (Errand E N))} {index : Nat} (hindex : index < threads.length) :
    ∃ front back : List Chosen, ∀ thread,
      (threads.set index thread).flatten.filterMap choose
        = front ++ (thread.filterMap choose ++ back) := by
  refine ⟨(threads.take index).flatten.filterMap choose,
    (threads.drop (index + 1)).flatten.filterMap choose, ?_⟩
  intro thread
  rw [List.set_eq_take_append_cons_drop, if_pos hindex, List.flatten_append, List.flatten_cons,
    List.filterMap_append, List.filterMap_append]

theorem dropping_set {threads : List (List (Errand E N))} {index : Nat}
    (hindex : index < threads.length) :
    ∃ front back : List (Command E), ∀ thread,
      droppedBy (threads.set index thread).flatten = front ++ (droppedBy thread ++ back) :=
  filterMap_set Errand.dropped? hindex

/-- What is left to do of the close that counts. -/
def closeErrands (dropped : List (Command E)) (reason : String) (graceful : Bool) :
    List (Errand E N) :=
  dropped.map .abandon ++ (if graceful then [] else [.announce reason]) ++ [.cancel]

@[simp] theorem droppedBy_closeErrands (dropped : List (Command E)) (reason : String)
    (graceful : Bool) : droppedBy (closeErrands (N := N) dropped reason graceful) = dropped := by
  rw [closeErrands, droppedBy_append, droppedBy_append, droppedBy_abandons]
  cases graceful with
  | true => simp [droppedBy, Errand.dropped?]
  | false => simp [droppedBy, Errand.dropped?]

variable [CustomPackets E]

namespace Session

/-! ## Under the lock -/

def accept (session : Session E N) (command : Command E) : List (Errand E N) × Session E N :=
  let session := session.log (.submitted command)
  match session.lifecycle with
  | .preparing => ([], { session with queue := session.queue ++ [command] })
  | .active =>
    if session.activity.isOver then ([.abandon command], session)
    else ([], { session with channel := session.channel ++ [command] })
  | .closed => ([.abandon command], session)

def enterClose (session : Session E N) (reason : String) (graceful : Bool) :
    Bool × List (Errand E N) × Session E N :=
  if session.isClosed then (false, [], session)
  else
    let (dropped, session) := session.beginClose reason
    (true, closeErrands dropped reason graceful, session)

/-- Looks whether the peer was silent for longer than the limit. -/
def enterCheck (session : Session E N) (limit : Span) :
    Bool × List (Errand E N) × Session E N :=
  if session.isClosed then (false, [], session)
  else if limit.nanos < session.silence then
    (false, [.close Reason.timedOut false], session.count Metrics.keepaliveTimeout)
  else (true, [], session)

def enterCall (session : Session E N) : Call E → Reply × List (Errand E N) × Session E N
  | .send packet tag? =>
    match session.registry.ofPacket packet with
    | .error fault => (.outcome (.error fault), [], session)
    | .ok _ => (.outcome (.ok ()), session.accept (.send packet tag?))
  | .setPhase phase => (.outcome (.ok ()), session.accept (.setPhase phase))
  | .setThreshold threshold => (.outcome (.ok ()), session.accept (.setThreshold threshold))
  | .encrypt key =>
    if key.length = Limit.cipherKey then (.outcome (.ok ()), session.accept (.encrypt key))
    else (.outcome (.error (.keyLength key.length)), [], session)
  | .close reason graceful =>
    let (first, rest) := session.enterClose reason graceful
    (.verdict first, rest)
  | .checkAlive limit =>
    let (alive, rest) := session.enterCheck limit
    (.verdict alive, rest)

/-- Does an errand, and says what is left of it. -/
def runErrand (session : Session E N) : Errand E N → List (Errand E N) × Session E N
  | .abandon command => ([], session.abandon command)
  | .announce reason =>
    ([.hook (session.listener.onClosed reason)], session.log (.closed reason))
  | .hook .done => ([], session)
  | .hook (.note note next) => ([.hook next], session.log (.note note))
  | .hook (.look next) => ([.hook (next session.view)], session)
  | .hook (.call call next) =>
    let (reply, errands, session) := session.enterCall call
    (errands ++ [.hook (next reply)], session)
  | .cancel => ([], { session with cancelled := true })
  | .close reason graceful => (session.enterClose reason graceful).2

end Session

/-! ## What a call does to the books -/

def Command.IsSendable (registry : Registry E) : Command E → Prop
  | send packet _ => ∃ descriptor, registry.ofPacket packet = .ok descriptor
  | _ => True

/-- All that one critical section of a call does to the books, with the commands that the call is
then about to drop. -/
inductive Handled (books : Books E) : List (Command E) → Books E → Prop
  | same : Handled books [] books
  /-- A command is kept until there is a transport. -/
  | kept {command : Command E} : command.IsSendable books.registry →
      books.lifecycle = .preparing →
      Handled books [] { books with
        queue := books.queue ++ [command], submitted := books.submitted ++ [command] }
  /-- A command is left to the session's turns. -/
  | sent {command : Command E} : command.IsSendable books.registry →
      books.lifecycle = .active → books.activity.isOver = false →
      Handled books [] { books with
        channel := books.channel ++ [command], submitted := books.submitted ++ [command] }
  /-- A command comes too late. -/
  | late {command : Command E} : command.IsSendable books.registry →
      (books.lifecycle = .closed ∨ books.lifecycle = .active ∧ books.activity.isOver = true) →
      Handled books [command] { books with submitted := books.submitted ++ [command] }
  /-- The session is closed, and what it kept is taken. -/
  | shut : books.lifecycle ≠ .closed →
      Handled books books.queue { books with lifecycle := .closed, queue := [] }

theorem Handled.closed {books next : Books E} {dropped : List (Command E)}
    (h : Handled books dropped next) (hclosed : books.lifecycle = .closed) :
    next.lifecycle = .closed := by
  cases h with
  | same => exact hclosed
  | kept _ _ => exact hclosed
  | sent _ _ _ => exact hclosed
  | late _ _ => exact hclosed
  | shut _ => rfl

namespace Session

variable (session : Session E N)

theorem accept_handled {command : Command E} (h : command.IsSendable session.registry) :
    Handled session.books (droppedBy (session.accept command).1)
      (session.accept command).2.books := by
  have hbooks := books_log_submitted session command
  cases hlifecycle : session.lifecycle with
  | preparing =>
      have haccept : session.accept command
          = ([],
            { session.log (.submitted command) with queue := session.queue ++ [command] }) := by
        simp only [accept, log, hlifecycle]
      rw [haccept]
      show Handled _ _ { (session.log (.submitted command)).books with
        queue := session.queue ++ [command] }
      rw [hbooks]
      exact .kept h hlifecycle
  | active =>
      cases hover : session.activity.isOver with
      | true =>
          have haccept : session.accept command
              = ([.abandon command], session.log (.submitted command)) := by
            simp only [accept, log, hlifecycle, hover, if_true]
          rw [haccept, hbooks]
          exact .late h (.inr ⟨hlifecycle, hover⟩)
      | false =>
          have haccept : session.accept command
              = ([],
                { session.log (.submitted command) with
                  channel := session.channel ++ [command] }) := by
            simp only [accept, log, hlifecycle, hover, Bool.false_eq_true, if_false]
          rw [haccept]
          show Handled _ _ { (session.log (.submitted command)).books with
            channel := session.channel ++ [command] }
          rw [hbooks]
          exact .sent h hlifecycle hover
  | closed =>
      have haccept : session.accept command
          = ([.abandon command], session.log (.submitted command)) := by
        simp only [accept, log, hlifecycle]
      rw [haccept, hbooks]
      exact .late h (.inl hlifecycle)

theorem enterClose_handled (reason : String) (graceful : Bool) :
    Handled session.books (droppedBy (session.enterClose reason graceful).2.1)
      (session.enterClose reason graceful).2.2.books := by
  rw [enterClose]
  split
  · exact .same
  · rename_i hopen
    simp only [beginClose, droppedBy_closeErrands]
    exact .shut fun h => hopen (isClosed_iff.2 h)

theorem enterCheck_handled (limit : Span) :
    Handled session.books (droppedBy (session.enterCheck limit).2.1)
      (session.enterCheck limit).2.2.books := by
  rw [enterCheck]
  split
  · exact .same
  · split
    · exact .same
    · exact .same

theorem enterCall_handled (call : Call E) :
    Handled session.books (droppedBy (session.enterCall call).2.1)
      (session.enterCall call).2.2.books := by
  cases call with
  | send packet tag? =>
      rw [enterCall]
      cases hpacket : session.registry.ofPacket packet with
      | error fault => exact .same
      | ok descriptor => exact session.accept_handled ⟨descriptor, hpacket⟩
  | setPhase phase => exact session.accept_handled True.intro
  | setThreshold threshold => exact session.accept_handled True.intro
  | encrypt key =>
      rw [enterCall]
      split
      · exact session.accept_handled True.intro
      · exact .same
  | close reason graceful => exact session.enterClose_handled reason graceful
  | checkAlive limit => exact session.enterCheck_handled limit

/-- An errand drops its command, or is one critical section of a call. -/
theorem runErrand_handled (errand : Errand E N) :
    (∃ command, errand = .abandon command
        ∧ session.runErrand errand = ([], session.abandon command))
      ∨ (errand.dropped? = none
        ∧ Handled session.books (droppedBy (session.runErrand errand).1)
            (session.runErrand errand).2.books) := by
  cases errand with
  | abandon command => exact .inl ⟨command, rfl, rfl⟩
  | announce reason =>
      refine .inr ⟨rfl, ?_⟩
      rw [runErrand, books_log session rfl rfl rfl rfl]
      exact .same
  | hook rest =>
      refine .inr ⟨rfl, ?_⟩
      cases rest with
      | done => exact .same
      | note note next =>
          rw [runErrand, books_log session rfl rfl rfl rfl]
          exact .same
      | look next => exact .same
      | call call next =>
          have h := session.enterCall_handled call
          simp only [runErrand, droppedBy_append]
          rw [show droppedBy [Errand.hook (next (session.enterCall call).1)] = [] from rfl,
            List.append_nil]
          exact h
  | cancel => exact .inr ⟨rfl, .same⟩
  | close reason graceful => exact .inr ⟨rfl, session.enterClose_handled reason graceful⟩

theorem isClosed_runErrand (errand : Errand E N) (h : session.isClosed) :
    (session.runErrand errand).2.isClosed := by
  rw [isClosed_iff] at h ⊢
  rcases session.runErrand_handled errand with ⟨command, -, hrun⟩ | ⟨-, hhandled⟩
  · rw [hrun, books_abandon]
    exact h
  · exact hhandled.closed h

/-! ## Without interruption, it is the call -/

/-- A way to close that does, in one go, what `enterClose` begins; on sessions that satisfy `P`. -/
def Faithful (P : Session E N → Prop) (close : Closing E N) : Prop :=
  ∀ reason graceful session, P session →
    (close reason graceful session).1 = (session.enterClose reason graceful).1
      ∧ Settles runErrand (session.enterClose reason graceful).2.1
          (session.enterClose reason graceful).2.2 (close reason graceful session).2

section

variable {P : Session E N → Prop} {close : Closing E N} (hclose : Faithful P close)
  (hP : ∀ errand session, P session → P (session.runErrand errand).2)
  (hcount : ∀ session change, P session → P (session.count change))

theorem abandons_settle (commands : List (Command E)) : ∀ session : Session E N,
    Settles runErrand (commands.map .abandon) session (commands.foldl abandon session) := by
  induction commands with
  | nil =>
      intro session
      exact .nil session
  | cons command commands ih =>
      intro session
      exact .cons (ih (session.abandon command))

theorem submit_settles (command : Command E) (session : Session E N) :
    Settles runErrand (session.accept command).1 (session.accept command).2
      (session.submit command) := by
  cases hlifecycle : session.lifecycle with
  | preparing =>
      simp only [accept, submit, log, hlifecycle]
      exact .nil _
  | active =>
      cases hover : session.activity.isOver with
      | true =>
          simp only [accept, submit, log, hlifecycle, hover, if_true]
          exact .cons (.nil _)
      | false =>
          simp only [accept, submit, log, hlifecycle, hover, Bool.false_eq_true, if_false]
          exact .nil _
  | closed =>
      simp only [accept, submit, log, hlifecycle]
      exact .cons (.nil _)

include hclose in
theorem Faithful.settles (reason : String) (graceful : Bool) (session : Session E N)
    (h : P session) :
    Settles runErrand [.close reason graceful] session (close reason graceful session).2 := by
  have hsettles := (hclose reason graceful session h).2
  refine .cons ?_
  rw [List.append_nil]
  exact hsettles

include hclose hcount in
theorem checkAliveBy_settles (limit : Span) (session : Session E N) (h : P session) :
    (checkAliveBy close limit session).1 = (session.enterCheck limit).1
      ∧ Settles runErrand (session.enterCheck limit).2.1 (session.enterCheck limit).2.2
          (checkAliveBy close limit session).2 := by
  rw [checkAliveBy, enterCheck]
  split
  · exact ⟨rfl, .nil _⟩
  · split
    · exact ⟨rfl, hclose.settles _ _ _ (hcount _ _ h)⟩
    · exact ⟨rfl, .nil _⟩

include hclose hcount in
theorem callBy_settles (session : Session E N) (h : P session) (call : Call E) :
    (session.callBy close call).1 = (session.enterCall call).1
      ∧ Settles runErrand (session.enterCall call).2.1 (session.enterCall call).2.2
          (session.callBy close call).2 := by
  cases call with
  | send packet tag? =>
      rw [callBy, enterCall]
      cases session.registry.ofPacket packet with
      | error fault => exact ⟨rfl, .nil _⟩
      | ok descriptor => exact ⟨rfl, submit_settles _ session⟩
  | setPhase phase => exact ⟨rfl, submit_settles _ session⟩
  | setThreshold threshold => exact ⟨rfl, submit_settles _ session⟩
  | encrypt key =>
      rw [callBy, enterCall]
      split
      · exact ⟨rfl, submit_settles _ session⟩
      · exact ⟨rfl, .nil _⟩
  | close reason graceful =>
      obtain ⟨hfirst, hsettles⟩ := hclose reason graceful session h
      exact ⟨congrArg Reply.verdict hfirst, hsettles⟩
  | checkAlive limit =>
      obtain ⟨halive, hsettles⟩ := checkAliveBy_settles hclose hcount limit session h
      exact ⟨congrArg Reply.verdict halive, hsettles⟩

include hclose hP hcount in
theorem runHookBy_settles (hook : Hook E N) : ∀ session : Session E N, P session →
    Settles runErrand [.hook hook] session (runHookBy close hook session) := by
  induction hook with
  | done =>
      intro session h
      exact .cons (.nil session)
  | note note next ih =>
      intro session h
      exact .cons (ih _ (hP (.hook (.note note next)) session h))
  | look next ih =>
      intro session h
      exact .cons (ih session.view session h)
  | call call next ih =>
      intro session h
      obtain ⟨hreply, hcall⟩ := callBy_settles hclose hcount session h call
      have hnext := hcall.preserves hP (hP (.hook (.call call next)) session h)
      have hrest := hcall.append (ih (session.callBy close call).1 _ hnext)
      rw [hreply] at hrest
      refine .cons ?_
      rw [List.append_nil]
      simp only [runHookBy, hreply]
      exact hrest

end

theorem faithful_closeAgain :
    Faithful (fun session : Session E N => session.isClosed) closeAgain := by
  intro reason graceful session h
  rw [enterClose, if_pos h]
  exact ⟨rfl, .nil session⟩

/-- The hook of a close finds the session closed. -/
theorem announce_settles (session : Session E N) (reason : String) (h : session.isClosed) :
    Settles runErrand [.announce reason] session (session.announceClose reason) :=
  .cons (runHookBy_settles faithful_closeAgain
    (fun errand session => session.isClosed_runErrand errand) (fun _ _ h => h)
    (session.listener.onClosed reason) _ h)

theorem isClosed_abandons (commands : List (Command E)) (session : Session E N)
    (h : session.isClosed) : (commands.foldl abandon session).isClosed :=
  (abandons_settle commands session).preserves (P := fun session : Session E N => session.isClosed)
    (fun errand session => session.isClosed_runErrand errand) h

theorem faithful_close : Faithful (fun _ : Session E N => True) close := by
  intro reason graceful session _
  rw [close, enterClose]
  split
  · exact ⟨rfl, .nil session⟩
  · refine ⟨rfl, ?_⟩
    have hdrop := abandons_settle session.queue (session.beginClose reason).2
    have hclosed := isClosed_abandons session.queue (session.beginClose reason).2 rfl
    cases graceful with
    | true => exact (hdrop.append (.nil _)).append (.cons (.nil _))
    | false =>
        have hannounce := announce_settles _ reason hclosed
        exact (hdrop.append hannounce).append (.cons (.nil _))

/-- A call that is not interrupted. -/
theorem settles_call (session : Session E N) (call : Call E) :
    (session.call call).1 = (session.enterCall call).1
      ∧ Settles runErrand (session.enterCall call).2.1 (session.enterCall call).2.2
        (session.call call).2 :=
  callBy_settles faithful_close (fun _ _ h => h) session True.intro call

theorem settles_runHook (session : Session E N) (hook : Hook E N) :
    Settles runErrand [.hook hook] session (session.runHook hook) :=
  runHookBy_settles faithful_close (fun _ _ h => h) (fun _ _ h => h) hook session True.intro

theorem settles_shut (session : Session E N) (reason : String) :
    Settles runErrand [.close reason false] session (session.shut reason) :=
  faithful_close.settles reason false session True.intro

end Session
end PhaseWire
