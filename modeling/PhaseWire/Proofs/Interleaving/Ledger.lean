import PhaseWire.Proofs.Interleaving.World

/-
# `Ledger` — all that a move does to the books

The ledger of a world are the books of its session, the session's present
turn, and the commands that calls under way are about to drop.  `Entry` is
the list of what one move can do to it, with what is known when it does;
`ledger_step` says that the list is complete.  What is proved of all
schedules is proved once for each entry.
-/

namespace PhaseWire

variable {E N : Type} [CustomPackets E]

/-- What a world owes. -/
structure Ledger (E N : Type) [CustomPackets E] where
  books : Books E
  jobs : List (Job E N)
  sequel? : Option Sequel
  /-- The commands that calls under way are about to drop. -/
  dropping : List (Command E)
  record : Record

def World.ledger (world : World E N) : Ledger E N where
  books := world.session.books
  jobs := world.jobs
  sequel? := world.sequel?
  dropping := droppedBy world.threads.flatten
  record := world.record

/-- The activity after a flush, unless the session crashes. -/
def Afterwards.LeadsTo : Afterwards → Activity → Prop
  | firstWait, .waiting | wait, .waiting | shutdown, .shuttingDown _ => True
  | _, _ => False

theorem Afterwards.LeadsTo.cases {afterwards : Afterwards} {activity : Activity}
    (h : afterwards.LeadsTo activity) :
    activity = .waiting ∧ afterwards ≠ .shutdown
      ∨ (∃ deadline, activity = .shuttingDown deadline) ∧ afterwards = .shutdown := by
  cases afterwards with
  | firstWait =>
      cases activity with
      | waiting => exact .inl ⟨rfl, noConfusion⟩
      | _ => exact h.elim
  | wait =>
      cases activity with
      | waiting => exact .inl ⟨rfl, noConfusion⟩
      | _ => exact h.elim
  | shutdown =>
      cases activity with
      | shuttingDown deadline => exact .inr ⟨⟨deadline, rfl⟩, rfl⟩
      | _ => exact h.elim

namespace Ledger

/-- Between two turns. -/
def IsIdle (ledger : Ledger E N) : Prop :=
  ledger.jobs = [] ∧ ledger.sequel? = none

def IsDue (ledger : Ledger E N) (afterwards : Afterwards) : Prop :=
  ledger.jobs = [] ∧ (ledger.sequel? = some (.flush afterwards)
    ∨ ledger.sequel? = some .dropLeft ∧ ledger.books.channel = [] ∧ afterwards = .shutdown)

/-- Nothing is left to flush. -/
def IsThrough (ledger : Ledger E N) (afterwards : Afterwards) : Prop :=
  ledger.IsDue afterwards ∧ ledger.books.tags = []
    ∨ ledger.jobs = [] ∧ ledger.sequel? = some (.goOn afterwards)
    ∨ ledger.IsIdle ∧ ledger.books.activity = .starting ∧ ledger.books.lifecycle ≠ .preparing
        ∧ afterwards = .firstWait

/-- The session is about to set its timer: before it waits for the first time, or at a tick. -/
def SetsTimer (ledger : Ledger E N) : Prop :=
  ledger.IsThrough .firstWait ∨ ledger.IsIdle ∧ ledger.books.activity = .waiting

/-- All that a move does to a ledger. -/
inductive Entry (ledger : Ledger E N) : Ledger E N → Prop
  | stay : Entry ledger ledger
  /-- One critical section of a call. -/
  | call {dropped dropping : List (Command E)} {next : Books E} :
      Handled ledger.books dropped next → dropping.Perm (ledger.dropping ++ dropped) →
      Entry ledger { ledger with books := next, dropping }
  /-- A call drops a command. -/
  | abandon {command : Command E} {dropping : List (Command E)} :
      ledger.dropping.Perm (command :: dropping) →
      Entry ledger { ledger with books := ledger.books.abandon command, dropping }
  | attach {options : SessionOptions} : ledger.books.activity = .detached →
      Entry ledger { ledger with books := { ledger.books with options, activity := .starting } }
  | job {job : Job E N} {rest jobs : List (Job E N)} {next : Books E} {record : Record} :
      ledger.jobs = job :: rest → Worked ledger.books ledger.record job jobs next record →
      Entry ledger { ledger with books := next, jobs := jobs ++ rest, record }
  /-- The session becomes active and takes what was kept. -/
  | start : ledger.IsIdle → ledger.books.activity = .starting →
      ledger.books.lifecycle = .preparing →
      Entry ledger { ledger with
        books := { ledger.books with lifecycle := .active, queue := [] }
        jobs := ledger.books.queue.map .execute
        sequel? := some (.flush .firstWait) }
  /-- The session takes a command and carries it out. -/
  | execute {command : Command E} {channel : List (Command E)} {jobs : List (Job E N)}
      {next : Books E} : ledger.IsIdle → ledger.books.activity = .waiting →
      ledger.books.channel = command :: channel →
      Worked { ledger.books with channel } ledger.record (.execute command) jobs next
        ledger.record →
      Entry ledger { ledger with books := next, jobs, sequel? := some (.flush .wait) }
  /-- The session takes up anything else. -/
  | assign {jobs : List (Job E N)} : ledger.IsIdle → ledger.books.activity = .waiting →
      (∀ job ∈ jobs, job.IsIdle) →
      Entry ledger { ledger with jobs, sequel? := some (.flush .wait) }
  | stop (reason : String) : ledger.IsIdle → ledger.books.activity = .waiting →
      ledger.books.lifecycle = .closed →
      Entry ledger { ledger with
        jobs := [.errand (.close reason false)], sequel? := some .dropLeft }
  /-- The transport takes bytes. -/
  | hand (count : Nat) :
      Entry ledger { ledger with
        books := { ledger.books with outgoing := ledger.books.outgoing.drop count }
        record := ledger.record.hand (ledger.books.outgoing.take count) }
  /-- All bytes of a flush are on their way. -/
  | settleDone {flush : Flush} : ledger.IsIdle → ledger.books.activity = .flushing flush →
      ledger.books.outgoing = [] →
      Entry ledger { ledger with
        record := ledger.record.flush
        jobs := World.tell flush.tags (.ok ())
        sequel? := some (.goOn flush.afterwards) }
  | settleFailed {flush : Flush} {errands : List (Errand E N)} (fault : Fault) :
      ledger.IsIdle → ledger.books.activity = .flushing flush → droppedBy errands = [] →
      Entry ledger { ledger with
        jobs := errands.map .errand ++ World.bury flush fault
        sequel? := some (.goOn flush.afterwards) }
  | flush {afterwards : Afterwards} {flush : Flush} : ledger.IsDue afterwards →
      flush.tags = ledger.books.tags → flush.afterwards = afterwards →
      Entry ledger { ledger with
        books := { ledger.books with activity := .flushing flush, tags := [] }
        sequel? := none }
  /-- The session goes on.  Before the first wait it starts its timer, which takes an interval. -/
  | proceed {afterwards : Afterwards} {activity : Activity} : ledger.IsThrough afterwards →
      afterwards.LeadsTo activity →
      (afterwards = .firstWait → ledger.books.options.keepaliveInterval.nanos ≠ 0) →
      Entry ledger { ledger with books := { ledger.books with activity }, sequel? := none }
  /-- The timer cannot be set. -/
  | crash : ledger.SetsTimer →
      Entry ledger { ledger with
        books := { ledger.books with activity := .crashed, channel := [], tags := [] }
        sequel? := none }
  /-- The session drops a command that is left. -/
  | drop {command : Command E} {channel : List (Command E)} : ledger.jobs = [] →
      ledger.sequel? = some .dropLeft → ledger.books.channel = command :: channel →
      Entry ledger { ledger with books := { ledger.books with channel }.abandon command }
  | finish {deadline : Instant} : ledger.IsIdle →
      ledger.books.activity = .shuttingDown deadline →
      Entry ledger { ledger with books := { ledger.books with activity := .finished } }

end Ledger

/-! ## The list is complete -/

namespace Session

variable (session : Session E N)

theorem proceed_books (duplex : Duplex) (afterwards : Afterwards) :
    (∃ activity, afterwards.LeadsTo activity
        ∧ (afterwards = .firstWait → session.books.options.keepaliveInterval.nanos ≠ 0)
        ∧ (session.proceed duplex afterwards).1.books = { session.books with activity })
      ∨ afterwards = .firstWait
        ∧ (session.proceed duplex afterwards).1.books
          = { session.books with activity := .crashed, channel := [], tags := [] } := by
  cases afterwards with
  | firstWait =>
      rw [proceed, firstWait]
      split
      · rename_i nextTick htick
        refine .inl ⟨.waiting, True.intro, fun _ hnone => ?_, rfl⟩
        have hnever : session.firstTick? = none := Instant.firstTick?_eq_none_iff.mpr (.inl hnone)
        exact nomatch hnever.symm.trans htick
      · exact .inr ⟨rfl, rfl⟩
  | wait => exact .inl ⟨.waiting, True.intro, Afterwards.noConfusion, rfl⟩
  | shutdown => exact .inl ⟨.shuttingDown _, True.intro, Afterwards.noConfusion, rfl⟩

theorem beginFlush_books (duplex : Duplex) (afterwards : Afterwards) :
    (∃ flush : Flush, flush.tags = session.books.tags ∧ flush.afterwards = afterwards
        ∧ (session.beginFlush duplex afterwards).1.books
          = { session.books with activity := .flushing flush, tags := [] })
      ∨ session.books.tags = []
        ∧ session.beginFlush duplex afterwards
          = { session with reading := true }.proceed duplex afterwards := by
  rw [beginFlush]
  split
  · rename_i hempty
    rw [Bool.and_eq_true] at hempty
    exact .inr ⟨List.isEmpty_iff.mp hempty.2, rfl⟩
  · exact .inl ⟨_, rfl, rfl, rfl⟩

end Session

namespace World

open Ledger

variable (world : World E N)

/-- When nothing is left to flush, the session goes on or crashes. -/
theorem proceed_entry (session : Session E N) (afterwards : Afterwards)
    (hbooks : session.books = world.session.books) (h : world.ledger.IsThrough afterwards) :
    world.ledger.Entry ({ world with sequel? := none }.become
      (session.proceed world.duplex afterwards)).ledger := by
  rcases session.proceed_books world.duplex afterwards with
    ⟨activity, hactivity, htimer, hproceed⟩ | ⟨rfl, hproceed⟩
  · rw [hbooks] at htimer
    simp only [ledger, become, hproceed, hbooks]
    exact .proceed h hactivity htimer
  · simp only [ledger, become, hproceed, hbooks]
    exact .crash (.inl h)

theorem flush_entry (afterwards : Afterwards) (h : world.ledger.IsDue afterwards) :
    world.ledger.Entry ({ world with sequel? := none }.become
      (world.session.beginFlush world.duplex afterwards)).ledger := by
  rcases world.session.beginFlush_books world.duplex afterwards with
    ⟨flush, htags, hafterwards, hbooks⟩ | ⟨htags, hproceed⟩
  · simp only [ledger, become, hbooks]
    exact .flush h htags hafterwards
  · rw [hproceed]
    exact world.proceed_entry { world.session with reading := true } afterwards rfl
      (.inl ⟨h, htags⟩)

theorem conclude_entry (hjobs : world.jobs = []) {sequel : Sequel}
    (hsequel : world.sequel? = some sequel) :
    world.ledger.Entry (world.conclude sequel).ledger := by
  cases sequel with
  | flush afterwards => exact world.flush_entry afterwards ⟨hjobs, .inl hsequel⟩
  | goOn afterwards =>
      exact world.proceed_entry { world.session with reading := true } afterwards rfl
        (.inr (.inl ⟨hjobs, hsequel⟩))
  | dropLeft =>
      cases hchannel : world.session.channel with
      | nil =>
          simp only [conclude, hchannel]
          exact world.flush_entry .shutdown ⟨hjobs, .inr ⟨hsequel, hchannel, rfl⟩⟩
      | cons command channel =>
          simp only [conclude, hchannel, ledger, Session.books_abandon]
          exact .drop hjobs hsequel hchannel

theorem startTurn_entry (hidle : world.ledger.IsIdle)
    (hactivity : world.session.activity = .starting) :
    world.ledger.Entry world.startTurn.ledger := by
  rw [startTurn]
  split
  · rename_i hpreparing
    exact .start hidle hactivity hpreparing
  · rename_i hlate
    have h : world.ledger.Entry _ :=
      world.proceed_entry (world.session.count Metrics.established) .firstWait rfl
        (.inr (.inr ⟨hidle, hactivity, hlate, rfl⟩))
    have hsequel : { world with sequel? := none } = world := by
      rw [← hidle.2]
      rfl
    rw [hsequel] at h
    exact h

theorem assign_entry {session : Session E N} {duplex : Duplex} {jobs : List (Job E N)}
    (hidle : world.ledger.IsIdle) (hactivity : world.session.activity = .waiting)
    (hbooks : session.books = world.session.books) (hjobs : ∀ job ∈ jobs, job.IsIdle) :
    world.ledger.Entry ({ world with session, duplex }.assign jobs (.flush .wait)).ledger := by
  simp only [ledger, assign, hbooks]
  exact .assign hidle hactivity hjobs

theorem same_entry {session : Session E N} {duplex : Duplex}
    (hbooks : session.books = world.session.books) :
    world.ledger.Entry { world with session, duplex }.ledger := by
  simp only [ledger, hbooks]
  exact .stay

theorem takeFrame_entry {session : Session E N} {duplex : Duplex} (incoming : Bytes)
    (hidle : world.ledger.IsIdle) (hactivity : world.session.activity = .waiting)
    (hbooks : session.books = world.session.books) :
    world.ledger.Entry ({ world with session, duplex }.takeFrame incoming).ledger := by
  have hregistry := session.codec.registry_decode incoming
  rw [takeFrame]
  dsimp only
  split
  · rename_i packet codec hdecode
    rw [hdecode] at hregistry
    refine world.assign_entry hidle hactivity ?_ (List.forall_mem_singleton.mpr True.intro)
    rw [← hbooks]
    simp only [Session.books, Session.registry, hregistry]
  · rename_i fault codec hdecode
    rw [hdecode] at hregistry
    refine world.assign_entry hidle hactivity ?_ (List.forall_mem_singleton.mpr True.intro)
    rw [← hbooks]
    simp only [Session.books, Session.registry, hregistry]
  · rename_i codec hdecode
    rw [hdecode] at hregistry
    have hsame : { session with codec, unseen := false }.books = world.session.books := by
      rw [← hbooks]
      simp only [Session.books, Session.registry, hregistry]
    split
    · exact world.assign_entry hidle hactivity hsame (List.forall_mem_singleton.mpr rfl)
    · exact world.same_entry hsame

theorem takeInput_entry (hidle : world.ledger.IsIdle)
    (hactivity : world.session.activity = .waiting) :
    world.ledger.Entry world.takeInput.ledger := by
  rw [takeInput]
  split
  · exact world.takeFrame_entry _ hidle hactivity rfl
  · exact .stay
  · exact world.takeFrame_entry _ hidle hactivity rfl
  · exact world.assign_entry hidle hactivity rfl (List.forall_mem_singleton.mpr True.intro)

theorem waitTurn_entry (hidle : world.ledger.IsIdle) (hactivity : world.session.activity = .waiting)
    (pick : Pick) : world.ledger.Entry (world.waitTurn pick).ledger := by
  cases pick with
  | stop =>
      rw [waitTurn]
      split
      · rename_i hclosed
        exact .stop Reason.connectionClosed hidle hactivity (Session.isClosed_iff.mp hclosed)
      · exact .stay
  | command =>
      rw [waitTurn]
      split
      · rename_i command channel hchannel
        exact .execute hidle hactivity hchannel
          ({ world.session with channel }.runJob_worked world.record (.execute command))
      · exact .stay
  | tick =>
      rw [waitTurn]
      split
      · split
        · exact world.assign_entry hidle hactivity rfl (List.forall_mem_singleton.mpr True.intro)
        · have hcrash : world.ledger.Entry _ := .crash (.inr ⟨hidle, hactivity⟩)
          rw [← hidle.2] at hcrash
          exact hcrash
      · exact .stay
  | input =>
      rw [waitTurn]
      split
      · exact .stay
      · split
        · exact world.takeFrame_entry [] hidle hactivity rfl
        · exact world.takeInput_entry hidle hactivity

theorem settle_entry {session : Session E N} (errands : List (Errand E N))
    (hidle : world.ledger.IsIdle) {flush : Flush}
    (hactivity : world.session.activity = .flushing flush) (fault : Fault)
    (hbooks : session.books = world.session.books) (hdropped : droppedBy errands = []) :
    world.ledger.Entry ({ world with session }.assign (errands.map Job.errand ++ bury flush fault)
      (.goOn flush.afterwards)).ledger := by
  simp only [ledger, assign, hbooks]
  exact .settleFailed fault hidle hactivity hdropped

theorem settleFailed_entry (hidle : world.ledger.IsIdle) {flush : Flush}
    (hactivity : world.session.activity = .flushing flush) (fault : Fault) :
    world.ledger.Entry (world.settleFailed flush fault).ledger :=
  world.settle_entry [] hidle hactivity fault rfl rfl

theorem flushWrite_entry (hidle : world.ledger.IsIdle) {flush : Flush}
    (hactivity : world.session.activity = .flushing flush) :
    world.ledger.Entry (world.flushWrite flush).ledger := by
  rw [flushWrite]
  split
  · rename_i hempty
    split
    · exact world.settleFailed_entry hidle hactivity _
    · exact .settleDone hidle hactivity (List.isEmpty_iff.mp hempty)
    · exact .stay
  · split
    · exact world.settleFailed_entry hidle hactivity _
    · exact .hand _

theorem flushTurn_entry (hidle : world.ledger.IsIdle) {flush : Flush}
    (hactivity : world.session.activity = .flushing flush) (pick : Pick) :
    world.ledger.Entry (world.flushTurn flush pick).ledger := by
  cases pick with
  | stop =>
      rw [flushTurn]
      split
      · exact world.settleFailed_entry hidle hactivity .closed
      · exact .stay
  | tick =>
      rw [flushTurn]
      split
      · rw [settleLate]
        split
        · exact world.settleFailed_entry hidle hactivity .timeout
        · exact world.settle_entry [.close Reason.timedOut false] hidle hactivity .timeout rfl rfl
      · exact .stay
  | command => exact world.flushWrite_entry hidle hactivity
  | input => exact world.flushWrite_entry hidle hactivity

theorem shutdownTurn_entry (hidle : world.ledger.IsIdle) {deadline : Instant}
    (hactivity : world.session.activity = .shuttingDown deadline) (pick : Pick) :
    world.ledger.Entry (world.shutdownTurn deadline pick).ledger := by
  unfold shutdownTurn
  split
  · split
    · exact .finish hidle hactivity
    · exact .stay
  · split
    · split
      · exact .stay
      · exact .finish hidle hactivity
    · split
      · exact .finish hidle hactivity
      · exact .hand _

theorem turn_entry (hidle : world.ledger.IsIdle) (pick : Pick) :
    world.ledger.Entry (world.turn pick).ledger := by
  rw [turn]
  split
  · exact .stay
  · exact .stay
  · exact .stay
  · rename_i hactivity
    exact world.startTurn_entry hidle hactivity
  · rename_i hactivity
    exact world.waitTurn_entry hidle hactivity pick
  · rename_i flush hactivity
    exact world.flushTurn_entry hidle hactivity pick
  · rename_i deadline hactivity
    exact world.shutdownTurn_entry hidle hactivity pick

theorem drive_entry (pick : Pick) : world.ledger.Entry (world.drive pick).ledger := by
  rw [drive]
  split
  · rename_i job rest hjobs
    exact .job hjobs (world.session.runJob_worked world.record job)
  · rename_i sequel hjobs hsequel
    exact world.conclude_entry hjobs hsequel
  · rename_i hjobs hsequel
    exact world.turn_entry ⟨hjobs, hsequel⟩ pick

/-! ## Threads -/

theorem runThread_entry (index : Nat) : world.ledger.Entry (world.runThread index).ledger := by
  rw [runThread]
  split
  · rename_i errand rest hthread
    -- What the other threads are about to drop stands around it and stays as it is.
    obtain ⟨hindex, hget⟩ := List.getElem?_eq_some_iff.mp hthread
    obtain ⟨front, back, hdropping⟩ := dropping_set hindex
    have hbefore : world.ledger.dropping = front ++ (droppedBy (errand :: rest) ++ back) := by
      rw [← hdropping, ← hget, List.set_getElem_self]
      rfl
    rcases world.session.runErrand_handled errand with ⟨command, rfl, hrun⟩ | ⟨hdropped, hhandled⟩
    · have hpending : world.ledger.dropping.Perm
          (command :: droppedBy (world.threads.set index rest).flatten) := by
        rw [hbefore, hdropping]
        exact List.perm_middle
      simp only [hrun, ledger, Session.books_abandon]
      exact .abandon hpending
    · have hpending : (droppedBy (world.threads.set index
          ((world.session.runErrand errand).1 ++ rest)).flatten).Perm
            (world.ledger.dropping ++ droppedBy (world.session.runErrand errand).1) := by
        have hrest : droppedBy (errand :: rest) = droppedBy rest :=
          List.filterMap_cons_none hdropped
        rw [hbefore, hdropping, hrest, droppedBy_append, List.append_assoc, List.append_assoc]
        exact List.Perm.append_left front List.perm_append_comm
      exact .call hhandled hpending
  · exact .stay

/-! ## All moves -/

/-- The list of entries is complete. -/
theorem step_entry (move : Move E N) : world.ledger.Entry (world.step move).ledger := by
  cases move with
  | spawn program =>
      -- A program that has done nothing holds no commands.
      have hthreads : droppedBy (world.threads ++ [[Errand.hook program]]).flatten
          = droppedBy world.threads.flatten := by
        rw [List.flatten_append, droppedBy_append]
        exact List.append_nil _
      simp only [step, ledger, hthreads]
      exact .stay
  | thread index => exact world.runThread_entry index
  | attach options duplex =>
      rw [step, Session.attach]
      split
      · rename_i hattach
        split at hattach
        · rename_i hdetached
          cases hattach
          exact .attach hdetached
        · cases hattach
      · exact .stay
  | surround surroundings => exact .stay
  | transport duplex => exact .stay
  | drive pick => exact world.drive_entry pick

end World

/-! ## The pace of the turns -/

/-- Nothing is done by the session itself. -/
def Activity.IsAsleep : Activity → Prop
  | detached | finished | crashed => True
  | _ => False

/-- What a session does after the last command was dropped. -/
def Activity.IsLast : Activity → Prop
  | flushing flush => flush.afterwards = .shutdown
  | shuttingDown _ | finished => True
  | _ => False

/-- Only what belongs to the end of the connection comes after it. -/
def Sequel.IsLast : Sequel → Prop
  | flush afterwards | goOn afterwards => afterwards = .shutdown
  | dropLeft => True

/-- The connection is about to end. -/
def Ledger.IsEnding (ledger : Ledger E N) : Prop :=
  match ledger.sequel? with
  | some sequel => sequel.IsLast
  | none => ledger.books.activity.IsLast

theorem Activity.ne_of_awake {activity : Activity} (hawake : ¬ activity.IsAsleep)
    (other : Activity) (hother : other.IsAsleep) : activity ≠ other := by
  intro heq
  rw [heq] at hawake
  exact hawake hother

theorem Ledger.isEnding_of_sequel {ledger : Ledger E N} {sequel : Sequel}
    (hsequel : ledger.sequel? = some sequel) (hlast : sequel.IsLast) : ledger.IsEnding := by
  rw [IsEnding, hsequel]
  exact hlast

theorem Ledger.isEnding_of_activity {ledger : Ledger E N} {activity : Activity}
    (hsequel : ledger.sequel? = none) (hactivity : ledger.books.activity = activity)
    (hlast : activity.IsLast) : ledger.IsEnding := by
  rw [IsEnding, hsequel, hactivity]
  exact hlast

/-- How the turns of a session follow each other. -/
structure Ledger.Paced (ledger : Ledger E N) : Prop where
  idle : ledger.sequel? = none → ledger.jobs = []
  asleep : ledger.books.activity.IsAsleep → ledger.sequel? = none
  detached : ledger.books.activity = .detached → ledger.books.lifecycle ≠ .active
  ending : ledger.IsEnding → ledger.books.lifecycle = .closed

/-- Where a session is does not change, unless it is closed. -/
structure Books.Keeps (books next : Books E) : Prop where
  activity_eq : next.activity = books.activity
  options_eq : next.options = books.options
  registry_eq : next.registry = books.registry
  lifecycle_cases : next.lifecycle = books.lifecycle ∨ next.lifecycle = .closed

theorem Books.Keeps.refl (books : Books E) : books.Keeps books :=
  ⟨rfl, rfl, rfl, .inl rfl⟩

theorem Handled.keeps {books next : Books E} {dropped : List (Command E)}
    (h : Handled books dropped next) : books.Keeps next := by
  cases h with
  | same => exact .refl books
  | kept _ _ => exact ⟨rfl, rfl, rfl, .inl rfl⟩
  | sent _ _ _ => exact ⟨rfl, rfl, rfl, .inl rfl⟩
  | late _ _ => exact ⟨rfl, rfl, rfl, .inl rfl⟩
  | shut _ => exact ⟨rfl, rfl, rfl, .inr rfl⟩

theorem Worked.keeps {books next : Books E} {record record' : Record} {job : Job E N}
    {jobs : List (Job E N)} (h : Worked books record job jobs next record') : books.Keeps next := by
  cases h with
  | abandon command => exact ⟨rfl, rfl, rfl, .inl rfl⟩
  | call _ _ h => exact h.keeps
  | send packet tag? => exact ⟨rfl, rfl, rfl, .inl rfl⟩
  | change _ _ => exact ⟨rfl, rfl, rfl, .inl rfl⟩
  | late packet tag? next? _ => exact .refl books
  | timely packet tag? next? _ => exact .refl books
  | strange packet tag? next? fault _ => exact .refl books
  | approach packet tag? next? _ => exact .refl books
  | encoded packet tag? next? wire => exact ⟨rfl, rfl, rfl, .inl rfl⟩
  | broken packet tag? next? fault => exact .refl books
  | complete tag? result => exact ⟨rfl, rfl, rfl, .inl rfl⟩

namespace Ledger.Paced

variable {ledger next : Ledger E N}

theorem keeps (h : ledger.Paced) (hbooks : ledger.books.Keeps next.books)
    (hsequel : next.sequel? = ledger.sequel?) (hidle : ledger.jobs = [] → next.jobs = []) :
    next.Paced := by
  refine ⟨?_, ?_, ?_, ?_⟩
  · intro hnone
    exact hidle (h.idle (hsequel ▸ hnone))
  · intro hasleep
    rw [hbooks.activity_eq] at hasleep
    exact hsequel.trans (h.asleep hasleep)
  · intro hdetached
    rw [hbooks.activity_eq] at hdetached
    rcases hbooks.lifecycle_cases with hsame | hclosed
    · rw [hsame]
      exact h.detached hdetached
    · rw [hclosed]
      exact Lifecycle.noConfusion
  · intro hending
    rw [IsEnding, hsequel, hbooks.activity_eq] at hending
    rcases hbooks.lifecycle_cases with hsame | hclosed
    · rw [hsame]
      exact h.ending hending
    · exact hclosed

theorem begun {sequel : Sequel} {activity : Activity} (hsequel : next.sequel? = some sequel)
    (hactivity : next.books.activity = activity) (hawake : ¬ activity.IsAsleep)
    (hending : sequel.IsLast → next.books.lifecycle = .closed) : next.Paced := by
  rw [← hactivity] at hawake
  refine ⟨?_, ?_, ?_, ?_⟩
  · intro hnone
    rw [hsequel] at hnone
    cases hnone
  · intro hasleep
    exact (hawake hasleep).elim
  · intro hdetached
    exact (Activity.ne_of_awake hawake .detached True.intro hdetached).elim
  · intro h
    rw [IsEnding, hsequel] at h
    exact hending h

theorem ended (hjobs : next.jobs = []) (hsequel : next.sequel? = none)
    (hdetached : next.books.activity ≠ .detached)
    (hending : next.books.activity.IsLast → next.books.lifecycle = .closed) : next.Paced where
  idle _ := hjobs
  asleep _ := hsequel
  detached h := (hdetached h).elim
  ending h := by
    rw [IsEnding, hsequel] at h
    exact hending h

/-- Where nothing is done, no turn is under way. -/
theorem resting (h : ledger.Paced) {activity : Activity}
    (hactivity : ledger.books.activity = activity) (hasleep : activity.IsAsleep) :
    ledger.sequel? = none := by
  rw [← hactivity] at hasleep
  exact h.asleep hasleep

theorem awake (h : ledger.Paced) {sequel : Sequel} (hsequel : ledger.sequel? = some sequel) :
    ¬ ledger.books.activity.IsAsleep := by
  intro hasleep
  rw [h.asleep hasleep] at hsequel
  cases hsequel

theorem awake_of_due (h : ledger.Paced) {afterwards : Afterwards}
    (hdue : ledger.IsDue afterwards) : ¬ ledger.books.activity.IsAsleep := by
  obtain ⟨-, hsequel | ⟨hsequel, -, -⟩⟩ := hdue
  · exact h.awake hsequel
  · exact h.awake hsequel

theorem awake_of_through (h : ledger.Paced) {afterwards : Afterwards}
    (hthrough : ledger.IsThrough afterwards) : ¬ ledger.books.activity.IsAsleep := by
  rcases hthrough with ⟨hdue, -⟩ | ⟨-, hsequel⟩ | ⟨-, hstarting, -, -⟩
  · exact h.awake_of_due hdue
  · exact h.awake hsequel
  · rw [hstarting]
    exact id

theorem closed_of_due (h : ledger.Paced) (hdue : ledger.IsDue .shutdown) :
    ledger.books.lifecycle = .closed := by
  obtain ⟨-, hsequel | ⟨hsequel, -, -⟩⟩ := hdue
  · exact h.ending (isEnding_of_sequel hsequel rfl)
  · exact h.ending (isEnding_of_sequel hsequel True.intro)

theorem closed_of_through (h : ledger.Paced) (hthrough : ledger.IsThrough .shutdown) :
    ledger.books.lifecycle = .closed := by
  rcases hthrough with ⟨hdue, -⟩ | ⟨-, hsequel⟩ | ⟨-, -, -, hfirst⟩
  · exact h.closed_of_due hdue
  · exact h.ending (isEnding_of_sequel hsequel rfl)
  · cases hfirst

theorem jobs_of_through {afterwards : Afterwards} (hthrough : ledger.IsThrough afterwards) :
    ledger.jobs = [] := by
  rcases hthrough with ⟨hdue, -⟩ | ⟨hjobs, -⟩ | ⟨hidle, -⟩
  · exact hdue.1
  · exact hjobs
  · exact hidle.1

theorem jobs_of_timer (hsets : ledger.SetsTimer) : ledger.jobs = [] :=
  hsets.elim jobs_of_through fun hwaiting => hwaiting.1.1

/-- A flush of the end is only made of a closed session. -/
theorem closed_of_flushing (h : ledger.Paced) (hidle : ledger.IsIdle) {flush : Flush}
    (hflushing : ledger.books.activity = .flushing flush) (hlast : flush.afterwards = .shutdown) :
    ledger.books.lifecycle = .closed :=
  h.ending (isEnding_of_activity hidle.2 hflushing hlast)

theorem entry (h : ledger.Paced) (hentry : ledger.Entry next) :
    next.Paced := by
  cases hentry with
  | stay => exact h
  | call hhandled hdropping => exact h.keeps hhandled.keeps rfl id
  | abandon hdropping => exact h.keeps ⟨rfl, rfl, rfl, .inl rfl⟩ rfl id
  | attach hdetached =>
      have hsequel := h.resting hdetached True.intro
      exact ended (h.idle hsequel) hsequel Activity.noConfusion False.elim
  | job hjobs hworked =>
      refine h.keeps hworked.keeps rfl fun hnone => ?_
      rw [hjobs] at hnone
      cases hnone
  | start hidle hstarting hpreparing => exact begun rfl hstarting id Afterwards.noConfusion
  | execute hidle hwaiting hchannel hworked =>
      have hstays := hworked.keeps.activity_eq.trans hwaiting
      exact begun rfl hstays id Afterwards.noConfusion
  | assign hidle hwaiting hjobs => exact begun rfl hwaiting id Afterwards.noConfusion
  | stop reason hidle hwaiting hclosed => exact begun rfl hwaiting id fun _ => hclosed
  | hand count => exact h.keeps ⟨rfl, rfl, rfl, .inl rfl⟩ rfl id
  | settleDone hidle hflushing hempty =>
      exact begun rfl hflushing id (h.closed_of_flushing hidle hflushing)
  | settleFailed fault hidle hflushing hdropped =>
      exact begun rfl hflushing id (h.closed_of_flushing hidle hflushing)
  | flush hdue htags hafterwards =>
      refine ended hdue.1 rfl Activity.noConfusion ?_
      intro hlast
      have hshutdown : _ = Afterwards.shutdown := hafterwards.symm.trans hlast
      subst hshutdown
      exact h.closed_of_due hdue
  | proceed hthrough hleads htimer =>
      have hjobs := jobs_of_through hthrough
      rcases hleads.cases with ⟨rfl, -⟩ | ⟨⟨deadline, rfl⟩, rfl⟩
      · exact ended hjobs rfl Activity.noConfusion False.elim
      · have hclosed := h.closed_of_through hthrough
        exact ended hjobs rfl Activity.noConfusion fun _ => hclosed
  | crash hsets =>
      have hjobs := jobs_of_timer hsets
      exact ended hjobs rfl Activity.noConfusion False.elim
  | drop hjobs hsequel hchannel => exact h.keeps ⟨rfl, rfl, rfl, .inl rfl⟩ rfl id
  | finish hidle hshutting =>
      have hclosed := h.ending (isEnding_of_activity hidle.2 hshutting True.intro)
      exact ended hidle.1 hidle.2 Activity.noConfusion fun _ => hclosed

end Ledger.Paced

theorem World.paced_new (registry : Registry E) (listener : Listener E N) :
    (World.new registry listener).ledger.Paced where
  idle _ := rfl
  asleep _ := rfl
  detached _ := Lifecycle.noConfusion
  ending h := h.elim

end PhaseWire
