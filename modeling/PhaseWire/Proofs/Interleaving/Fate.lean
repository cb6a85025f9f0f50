import PhaseWire.Proofs.Interleaving.World

/-
# `Fate` — all that a move does to what a close decides

The fate of a session is its lifecycle, its reason, and what its listener,
which stays the same, was told of a close.  Anybody can try to decide it at
any time.  `Faced` says what one piece of work can do to a fate, and names
the attempt to close that it makes, if any, with the answer that whoever
makes it gets.  `Turned` says the same of a move, beside what errands under
way are about to tell the listener; `step_turned` says that its list is
complete.
-/

namespace PhaseWire

variable {E N : Type}

/-! ## Attempts -/

/-- A call that closes, and its answer. -/
structure Attempt where
  reason : String
  graceful : Bool
  /-- Whether this was the close that counts. -/
  won : Bool
  deriving DecidableEq, Repr

/-- What the close decides, and who is told of it. -/
structure Fate (E N : Type) where
  listener : Listener E N
  lifecycle : Lifecycle
  reason? : Option String
  /-- The reasons that the listener was told. -/
  told : List String

/-- The way from one lifecycle to another. -/
inductive Lifecycle.LeadsTo : Lifecycle → Lifecycle → Prop
  | stay (lifecycle : Lifecycle) : LeadsTo lifecycle lifecycle
  | start : LeadsTo .preparing .active
  | close (lifecycle : Lifecycle) : LeadsTo lifecycle .closed

theorem Lifecycle.LeadsTo.trans {first next last : Lifecycle} (h : first.LeadsTo next)
    (hnext : next.LeadsTo last) : first.LeadsTo last := by
  cases h with
  | stay => exact hnext
  | start =>
      cases hnext with
      | stay => exact .start
      | close => exact .close _
  | close =>
      cases hnext with
      | stay => exact .close _
      | close => exact .close _

/-- Nothing leads out of the last lifecycle. -/
theorem Lifecycle.LeadsTo.eq_closed {next : Lifecycle} (h : LeadsTo .closed next) :
    next = .closed := by
  cases h with
  | stay => rfl
  | close => rfl

/-- The listener was told of a close. -/
def Event.closed? : Event E N → Option String
  | closed reason => some reason
  | _ => none

def Errand.telling? : Errand E N → Option String
  | announce reason => some reason
  | _ => none

def Job.telling? : Job E N → Option String
  | errand task => task.telling?
  | _ => none

def tellingBy (errands : List (Errand E N)) : List String :=
  errands.filterMap Errand.telling?

def tellingIn (jobs : List (Job E N)) : List String :=
  jobs.filterMap Job.telling?

@[simp] theorem tellingBy_append (errands more : List (Errand E N)) :
    tellingBy (errands ++ more) = tellingBy errands ++ tellingBy more :=
  List.filterMap_append

@[simp] theorem tellingIn_append (jobs more : List (Job E N)) :
    tellingIn (jobs ++ more) = tellingIn jobs ++ tellingIn more :=
  List.filterMap_append

theorem tellingIn_errands (errands : List (Errand E N)) :
    tellingIn (errands.map Job.errand) = tellingBy errands := by
  rw [tellingIn, List.filterMap_map]
  rfl

@[simp] theorem tellingBy_closeErrands (dropped : List (Command E)) (reason : String)
    (graceful : Bool) :
    tellingBy (closeErrands (N := N) dropped reason graceful)
      = if graceful then [] else [reason] := by
  have hdropped : tellingBy (dropped.map (Errand.abandon (N := N))) = [] := by
    rw [tellingBy, List.filterMap_map]
    exact List.filterMap_eq_nil_iff.mpr fun _ _ => rfl
  rw [closeErrands, tellingBy_append, tellingBy_append, hdropped]
  cases graceful with
  | true => rfl
  | false => rfl

theorem tellingIn_resume (next? : Option (Reply → Script E N)) (result : Except Fault Unit) :
    tellingIn (resume next? result) = [] := by
  cases next? with
  | none => rfl
  | some next => rfl

theorem tellingIn_executes (commands : List (Command E)) :
    tellingIn (commands.map (Job.execute (N := N))) = [] := by
  rw [tellingIn, List.filterMap_map]
  exact List.filterMap_eq_nil_iff.mpr fun _ _ => rfl

theorem tellingIn_tell (tags : List Tag) (result : Except Fault Unit) :
    tellingIn (World.tell (E := E) (N := N) tags result) = [] := by
  rw [tellingIn, World.tell, List.filterMap_map]
  exact List.filterMap_eq_nil_iff.mpr fun _ _ => rfl

theorem tellingIn_bury (flush : Flush) (fault : Fault) :
    tellingIn (World.bury (E := E) (N := N) flush fault) = [] := by
  rw [World.bury, tellingIn_append, tellingIn_tell]
  rfl

/-- All that one piece of work does to a session's fate, with its attempt to close and with what
the listener is then to be told. -/
inductive Faced (fate : Fate E N) : Option Attempt → List String → Fate E N → Prop
  | same : Faced fate none [] fate
  /-- The session is closed already. -/
  | lost (reason : String) (graceful : Bool) : fate.lifecycle = .closed →
      Faced fate (some ⟨reason, graceful, false⟩) [] fate
  | won (reason : String) (graceful : Bool) : fate.lifecycle ≠ .closed →
      Faced fate (some ⟨reason, graceful, true⟩) (if graceful then [] else [reason])
        { fate with lifecycle := .closed, reason? := some reason }

theorem Faced.quiet {fate next : Fate E N} {telling : List String}
    (h : telling = [] ∧ next = fate) : Faced fate none telling next := by
  obtain ⟨rfl, rfl⟩ := h
  exact .same

/-- All that a move does to a session's fate and to what the listener is still to be told, with the
attempt to close that it makes. -/
inductive Turned (fate : Fate E N) (telling : List String) :
    Option Attempt → Fate E N → List String → Prop
  | face {attempt? : Option Attempt} {more left : List String} {next : Fate E N} :
      Faced fate attempt? more next → left.Perm (telling ++ more) →
      Turned fate telling attempt? next left
  | tell {reason : String} {left : List String} : telling.Perm (reason :: left) →
      Turned fate telling none { fate with told := fate.told ++ [reason] } left
  | start : fate.lifecycle = .preparing →
      Turned fate telling none { fate with lifecycle := .active } telling

theorem Turned.leadsTo {fate next : Fate E N} {telling left : List String}
    {attempt? : Option Attempt} (h : Turned fate telling attempt? next left) : fate.lifecycle.LeadsTo next.lifecycle := by
  cases h with
  | face hfaced hleft =>
      cases hfaced with
      | same => exact .stay _
      | lost reason graceful hclosed => exact .stay _
      | won reason graceful hopen => exact .close _
  | tell htelling => exact .stay _
  | start hpreparing =>
      rw [hpreparing]
      exact .start

theorem Turned.listener_eq {fate next : Fate E N} {telling left : List String}
    {attempt? : Option Attempt} (h : Turned fate telling attempt? next left) :
    next.listener = fate.listener := by
  cases h with
  | face hfaced hleft =>
      cases hfaced with
      | same => rfl
      | lost reason graceful hclosed => rfl
      | won reason graceful hopen => rfl
  | tell htelling => rfl
  | start hpreparing => rfl

variable [CustomPackets E]

namespace Session

def fate (session : Session E N) : Fate E N where
  listener := session.listener
  lifecycle := session.lifecycle
  reason? := session.reason?
  told := session.events.filterMap Event.closed?

end Session

def Call.attempt? (session : Session E N) : Call E → Option Attempt
  | close reason graceful => some ⟨reason, graceful, (session.enterClose reason graceful).1⟩
  | _ => none

def Errand.attempt? (session : Session E N) : Errand E N → Option Attempt
  | close reason graceful => some ⟨reason, graceful, (session.enterClose reason graceful).1⟩
  | hook (.call call _) => call.attempt? session
  | _ => none

def Job.attempt? (session : Session E N) : Job E N → Option Attempt
  | errand task => task.attempt? session
  | script (.act (.call call) _) => call.attempt? session
  | _ => none

/-! ## Pieces of work -/

namespace Session

variable (session : Session E N)

theorem fate_log {event : Event E N} (h : event.closed? = none) :
    (session.log event).fate = session.fate := by
  simp [fate, log, h]

theorem fate_complete (tag? : Option Tag) (result : Except Fault Unit) :
    (session.complete tag? result).fate = session.fate := by
  cases tag? with
  | none => rfl
  | some tag => exact session.fate_log rfl

theorem fate_abandon (command : Command E) : (session.abandon command).fate = session.fate := by
  rw [abandon, fate_complete, fate_log _ rfl]

theorem accept_quiet (command : Command E) :
    tellingBy (session.accept command).1 = [] ∧ (session.accept command).2.fate = session.fate := by
  have hlog : (session.log (.submitted command)).fate = session.fate := session.fate_log rfl
  rw [accept]
  split
  · exact ⟨rfl, hlog⟩
  · split
    · exact ⟨rfl, hlog⟩
    · exact ⟨rfl, hlog⟩
  · exact ⟨rfl, hlog⟩

theorem enterClose_faced (reason : String) (graceful : Bool) :
    Faced session.fate (some ⟨reason, graceful, (session.enterClose reason graceful).1⟩)
      (tellingBy (session.enterClose reason graceful).2.1)
      (session.enterClose reason graceful).2.2.fate := by
  rw [enterClose]
  split
  · rename_i hclosed
    exact .lost reason graceful (of_decide_eq_true hclosed)
  · rename_i hopen
    simp only [beginClose, tellingBy_closeErrands]
    exact .won reason graceful fun h => hopen (decide_eq_true h)

theorem enterCheck_quiet (limit : Span) :
    tellingBy (session.enterCheck limit).2.1 = []
      ∧ (session.enterCheck limit).2.2.fate = session.fate := by
  rw [enterCheck]
  split
  · exact ⟨rfl, rfl⟩
  · split
    · exact ⟨rfl, rfl⟩
    · exact ⟨rfl, rfl⟩

theorem enterCall_faced (call : Call E) :
    Faced session.fate (call.attempt? session) (tellingBy (session.enterCall call).2.1)
      (session.enterCall call).2.2.fate := by
  cases call with
  | send packet tag? =>
      rw [enterCall]
      cases session.registry.ofPacket packet with
      | error fault => exact .same
      | ok descriptor => exact Faced.quiet (session.accept_quiet _)
  | setPhase phase => exact Faced.quiet (session.accept_quiet _)
  | setThreshold threshold => exact Faced.quiet (session.accept_quiet _)
  | encrypt key =>
      rw [enterCall]
      split
      · exact Faced.quiet (session.accept_quiet _)
      · exact .same
  | close reason graceful => exact session.enterClose_faced reason graceful
  | checkAlive limit => exact Faced.quiet (session.enterCheck_quiet limit)

theorem runErrand_faced (errand : Errand E N) :
    (∃ reason, errand = .announce reason ∧ tellingBy (session.runErrand errand).1 = []
        ∧ (session.runErrand errand).2.fate
          = { session.fate with told := session.fate.told ++ [reason] })
      ∨ (errand.telling? = none
        ∧ Faced session.fate (errand.attempt? session) (tellingBy (session.runErrand errand).1)
          (session.runErrand errand).2.fate) := by
  cases errand with
  | abandon command => exact .inr ⟨rfl, Faced.quiet ⟨rfl, session.fate_abandon command⟩⟩
  | announce reason =>
      refine .inl ⟨reason, rfl, rfl, ?_⟩
      simp [runErrand, fate, log, Event.closed?]
  | hook rest =>
      refine .inr ⟨rfl, ?_⟩
      cases rest with
      | done => exact .same
      | note note next => exact Faced.quiet ⟨rfl, session.fate_log rfl⟩
      | look next => exact .same
      | call call next =>
          have h := session.enterCall_faced call
          simp only [runErrand, tellingBy_append]
          rw [show tellingBy [Errand.hook (next (session.enterCall call).1)] = [] from rfl,
            List.append_nil]
          exact h
  | cancel => exact .inr ⟨rfl, .same⟩
  | close reason graceful => exact .inr ⟨rfl, session.enterClose_faced reason graceful⟩

/-- What leaves the fate as it is, and nobody to be told. -/
def IsQuiet (result : List (Job E N) × Session E N) : Prop :=
  tellingIn result.1 = [] ∧ result.2.fate = session.fate

theorem beginPhase_still (phase : Phase) : session.IsQuiet (session.beginPhase phase) := by
  rw [beginPhase]
  split
  · exact ⟨rfl, rfl⟩
  · exact ⟨rfl, rfl⟩

theorem beginApproach_still (phase : Phase) : session.IsQuiet (session.beginApproach phase) := by
  rw [beginApproach]
  split
  · exact ⟨rfl, rfl⟩
  · exact { session with reading := false }.beginPhase_still phase

theorem fate_encrypt (key : Bytes) : (session.encrypt key).2.fate = session.fate := by
  simp only [encrypt]
  split
  · rfl
  · split
    · rfl
    · split
      · rfl
      · rfl

theorem fate_setThreshold (threshold : Int32) :
    (session.setThreshold threshold).2.fate = session.fate := by
  rw [setThreshold]
  split
  · split
    · rfl
    · rfl
  · simp only [compressFrom]
    split
    · rfl
    · split
      · rfl
      · rfl

theorem fate_enableCompression : session.enableCompression.2.fate = session.fate := by
  rw [enableCompression]
  split
  · rfl
  · exact session.fate_setThreshold _

theorem execute_still (command : Command E) :
    session.IsQuiet (session.runJob (.execute command)) := by
  have hlog : (session.log (.executed command)).fate = session.fate := session.fate_log rfl
  rw [IsQuiet, ← hlog]
  cases command with
  | send packet tag? => exact ⟨rfl, rfl⟩
  | setPhase phase =>
      simp only [runJob, runCommand]
      split
      · exact (session.log (.executed (.setPhase phase))).beginPhase_still phase
      · exact ⟨rfl, rfl⟩
  | setThreshold threshold => exact ⟨rfl, fate_setThreshold _ threshold⟩
  | encrypt key => exact ⟨rfl, fate_encrypt _ key⟩

theorem beginWrite_still (packet : Packet E) (tag? : Option Tag)
    (next? : Option (Reply → Script E N)) :
    tellingIn (session.beginWrite packet tag? next?) = [] := by
  rw [beginWrite]
  split
  · exact tellingIn_resume next? _
  · rfl

theorem runApproach_still (packet : Packet E) (tag? : Option Tag)
    (next? : Option (Reply → Script E N)) :
    session.IsQuiet (session.runApproach packet tag? next?) := by
  rw [runApproach]
  split
  · exact ⟨tellingIn_resume next? _, rfl⟩
  · rename_i descriptor hdescriptor
    obtain ⟨htelling, hfate⟩ := session.beginApproach_still descriptor.phase
    refine ⟨?_, hfate⟩
    simp only [tellingIn_append, htelling]
    rfl

theorem runEncode_still (packet : Packet E) (tag? : Option Tag)
    (next? : Option (Reply → Script E N)) :
    session.IsQuiet (session.runEncode packet tag? next?) := by
  rw [runEncode]
  split
  · exact ⟨tellingIn_resume next? _, fate_log _ rfl⟩
  · exact ⟨tellingIn_resume next? _, rfl⟩

theorem runHandle_still (packet : Packet E) : session.IsQuiet (session.runHandle packet) := by
  have hdispatched : session.IsQuiet
      ([.script (session.listener.onPacket packet)], session.log (.packet packet)) :=
    ⟨rfl, session.fate_log rfl⟩
  unfold runHandle
  dsimp only
  split
  · exact hdispatched
  · split
    · exact ⟨rfl, rfl⟩
    · exact ⟨rfl, rfl⟩
    · exact hdispatched

theorem runTick_still : session.IsQuiet session.runTick := by
  rw [runTick]
  split
  · exact ⟨rfl, rfl⟩
  · obtain ⟨htelling, hfate⟩ := session.enterCheck_quiet session.options.keepaliveTimeout
    refine ⟨?_, hfate⟩
    simp only [tellingIn_append, tellingIn_errands, htelling, List.nil_append]
    split
    · rfl
    · rfl

theorem runScriptStep_faced (rest : Script E N) :
    Faced session.fate ((Job.script rest).attempt? session)
      (tellingIn (session.runScriptStep rest).1) (session.runScriptStep rest).2.fate := by
  cases rest with
  | done result =>
      cases result with
      | ok _ => exact .same
      | error fault => exact .same
  | note note next => exact Faced.quiet ⟨rfl, session.fate_log rfl⟩
  | look next => exact .same
  | act action next =>
      cases action with
      | send packet tag? => exact .same
      | setPhase phase =>
          rw [runScriptStep, runAction]
          split
          · obtain ⟨htelling, hfate⟩ := session.beginPhase_still phase
            refine Faced.quiet ⟨?_, hfate⟩
            simp only [tellingIn_append, htelling]
            rfl
          · rename_i hstay
            simp only [act, setPhase, if_neg hstay]
            exact .same
      | setThreshold threshold => exact Faced.quiet ⟨rfl, session.fate_setThreshold threshold⟩
      | enableCompression => exact Faced.quiet ⟨rfl, session.fate_enableCompression⟩
      | encrypt key => exact Faced.quiet ⟨rfl, session.fate_encrypt key⟩
      | call call =>
          have h := session.enterCall_faced call
          simp only [runScriptStep, runAction, tellingIn_append, tellingIn_errands]
          rw [show tellingIn [Job.script (next (session.enterCall call).1)] = [] from rfl,
            List.append_nil]
          exact h

theorem runJob_faced (job : Job E N) :
    (∃ reason, job = .errand (.announce reason) ∧ tellingIn (session.runJob job).1 = []
        ∧ (session.runJob job).2.fate
          = { session.fate with told := session.fate.told ++ [reason] })
      ∨ (job.telling? = none
        ∧ Faced session.fate (job.attempt? session) (tellingIn (session.runJob job).1)
          (session.runJob job).2.fate) := by
  cases job with
  | errand task =>
      simp only [runJob, tellingIn_errands]
      rcases session.runErrand_faced task with ⟨reason, rfl, htelling, hfate⟩ | hfaced
      · exact .inl ⟨reason, rfl, htelling, hfate⟩
      · exact .inr hfaced
  | execute command => exact .inr ⟨rfl, Faced.quiet (session.execute_still command)⟩
  | write packet tag? next? =>
      exact .inr ⟨rfl, Faced.quiet ⟨session.beginWrite_still packet tag? next?, rfl⟩⟩
  | approach packet tag? next? =>
      exact .inr ⟨rfl, Faced.quiet (session.runApproach_still packet tag? next?)⟩
  | encode packet tag? next? =>
      exact .inr ⟨rfl, Faced.quiet (session.runEncode_still packet tag? next?)⟩
  | enter phase => exact .inr ⟨rfl, .same⟩
  | tell phase => exact .inr ⟨rfl, Faced.quiet ⟨rfl, session.fate_log rfl⟩⟩
  | complete tag? result => exact .inr ⟨rfl, Faced.quiet ⟨rfl, session.fate_complete tag? result⟩⟩
  | script rest => exact .inr ⟨rfl, session.runScriptStep_faced rest⟩
  | receive packet =>
      refine .inr ⟨rfl, Faced.quiet ⟨?_, rfl⟩⟩
      rw [runJob]
      split
      · rfl
      · rfl
  | handle packet => exact .inr ⟨rfl, Faced.quiet (session.runHandle_still packet)⟩
  | fail fault =>
      refine .inr ⟨rfl, Faced.quiet ⟨rfl, ?_⟩⟩
      simp only [runJob, countFault]
      split
      · rfl
      · rfl
  | failIfOpen fault =>
      refine .inr ⟨rfl, Faced.quiet ⟨?_, rfl⟩⟩
      rw [runJob]
      split
      · rfl
      · rfl
  | tick => exact .inr ⟨rfl, Faced.quiet session.runTick_still⟩
  | probe => exact .inr ⟨rfl, .same⟩

theorem proceed_fate (duplex : Duplex) (afterwards : Afterwards) :
    (session.proceed duplex afterwards).1.fate = session.fate := by
  cases afterwards with
  | firstWait =>
      rw [proceed, firstWait]
      split
      · rfl
      · rfl
  | wait => rfl
  | shutdown => rfl

theorem beginFlush_fate (duplex : Duplex) (afterwards : Afterwards) :
    (session.beginFlush duplex afterwards).1.fate = session.fate := by
  rw [beginFlush]
  split
  · exact proceed_fate _ duplex afterwards
  · rfl

end Session

/-! ## Moves -/

namespace World

variable (world : World E N)

/-- The reasons that the listener is about to be told. -/
def telling : List String :=
  tellingIn world.jobs ++ tellingBy world.threads.flatten

def attempt? : Move E N → Option Attempt
  | .thread index => do
    let thread ← world.threads[index]?
    let errand ← thread.head?
    errand.attempt? world.session
  | .drive _ => do
    let job ← world.jobs.head?
    job.attempt? world.session
  | _ => none

/-- Nothing happens to the session's fate, and the session is not to tell anything. -/
def IsStill (next : World E N) : Prop :=
  next.session.fate = world.session.fate ∧ tellingIn next.jobs = [] ∧ next.threads = world.threads

theorem IsStill.turned {world next : World E N} (h : world.IsStill next)
    (hjobs : tellingIn world.jobs = []) :
    Turned world.session.fate world.telling none next.session.fate next.telling := by
  obtain ⟨hfate, htelling, hthreads⟩ := h
  have hsame : next.telling = world.telling := by
    rw [telling, telling, htelling, hthreads, hjobs]
  rw [hfate, hsame]
  refine .face .same ?_
  rw [List.append_nil]

section

variable (hjobs : world.jobs = [])
include hjobs

theorem takeFrame_still {session : Session E N} {duplex : Duplex} (incoming : Bytes)
    (hfate : session.fate = world.session.fate) :
    world.IsStill ({ world with session, duplex }.takeFrame incoming) := by
  rw [takeFrame]
  dsimp only
  split
  · exact ⟨hfate, rfl, rfl⟩
  · exact ⟨hfate, rfl, rfl⟩
  · split
    · exact ⟨hfate, rfl, rfl⟩
    · exact ⟨hfate, congrArg tellingIn hjobs, rfl⟩

theorem waitTurn_still (pick : Pick) : world.IsStill (world.waitTurn pick) := by
  have hstay : world.IsStill world := ⟨rfl, congrArg tellingIn hjobs, rfl⟩
  cases pick with
  | stop =>
      rw [waitTurn]
      split
      · exact ⟨rfl, rfl, rfl⟩
      · exact hstay
  | command =>
      rw [waitTurn]
      split
      · rename_i command channel hchannel
        obtain ⟨htelling, hfate⟩ := { world.session with channel }.execute_still command
        exact ⟨hfate, htelling, rfl⟩
      · exact hstay
  | tick =>
      rw [waitTurn]
      split
      · split
        · exact ⟨rfl, rfl, rfl⟩
        · exact ⟨rfl, congrArg tellingIn hjobs, rfl⟩
      · exact hstay
  | input =>
      rw [waitTurn]
      split
      · exact hstay
      · split
        · exact world.takeFrame_still hjobs [] rfl
        · rw [takeInput]
          split
          · exact world.takeFrame_still hjobs _ rfl
          · exact hstay
          · exact world.takeFrame_still hjobs _ rfl
          · exact ⟨rfl, rfl, rfl⟩

theorem flushTurn_still (flush : Flush) (pick : Pick) :
    world.IsStill (world.flushTurn flush pick) := by
  have hstay : world.IsStill world := ⟨rfl, congrArg tellingIn hjobs, rfl⟩
  have hfailed : ∀ fault, world.IsStill (world.settleFailed flush fault) :=
    fun fault => ⟨rfl, tellingIn_bury flush fault, rfl⟩
  have hwrite : world.IsStill (world.flushWrite flush) := by
    rw [flushWrite]
    split
    · split
      · exact hfailed _
      · exact ⟨rfl, tellingIn_tell flush.tags _, rfl⟩
      · exact hstay
    · split
      · exact hfailed _
      · exact ⟨rfl, congrArg tellingIn hjobs, rfl⟩
  cases pick with
  | stop =>
      rw [flushTurn]
      split
      · exact hfailed .closed
      · exact hstay
  | tick =>
      rw [flushTurn]
      split
      · rw [settleLate]
        split
        · exact hfailed .timeout
        · exact ⟨rfl, tellingIn_bury flush .timeout, rfl⟩
      · exact hstay
  | command => exact hwrite
  | input => exact hwrite

theorem shutdownTurn_still (deadline : Instant) (pick : Pick) :
    world.IsStill (world.shutdownTurn deadline pick) := by
  have hnone : tellingIn world.jobs = [] := congrArg tellingIn hjobs
  unfold shutdownTurn
  split
  · split
    · exact ⟨rfl, hnone, rfl⟩
    · exact ⟨rfl, hnone, rfl⟩
  · split
    · split
      · exact ⟨rfl, hnone, rfl⟩
      · exact ⟨rfl, hnone, rfl⟩
    · split
      · exact ⟨rfl, hnone, rfl⟩
      · exact ⟨rfl, hnone, rfl⟩

theorem conclude_still (sequel : Sequel) : world.IsStill (world.conclude sequel) := by
  have hnone : tellingIn world.jobs = [] := congrArg tellingIn hjobs
  cases sequel with
  | flush afterwards => exact ⟨world.session.beginFlush_fate _ afterwards, hnone, rfl⟩
  | goOn afterwards => exact ⟨Session.proceed_fate _ _ afterwards, hnone, rfl⟩
  | dropLeft =>
      rw [conclude]
      split
      · exact ⟨Session.fate_abandon _ _, hnone, rfl⟩
      · exact ⟨world.session.beginFlush_fate _ .shutdown, hnone, rfl⟩

theorem turn_turned (pick : Pick) :
    Turned world.session.fate world.telling none (world.turn pick).session.fate
      (world.turn pick).telling := by
  have hnone : tellingIn world.jobs = [] := congrArg tellingIn hjobs
  have hstay : world.IsStill world := ⟨rfl, hnone, rfl⟩
  rw [turn]
  split
  · exact hstay.turned hnone
  · exact hstay.turned hnone
  · exact hstay.turned hnone
  · rw [startTurn]
    split
    · rename_i hpreparing
      show Turned _ _ none { world.session.fate with lifecycle := .active }
        (tellingIn (world.session.queue.map .execute) ++ tellingBy world.threads.flatten)
      rw [tellingIn_executes, ← hnone]
      exact .start hpreparing
    · have hlate : world.IsStill (world.become ((world.session.count Metrics.established).firstWait
          world.duplex)) := ⟨Session.proceed_fate _ world.duplex .firstWait, hnone, rfl⟩
      exact hlate.turned hnone
  · exact (world.waitTurn_still hjobs pick).turned hnone
  · exact (world.flushTurn_still hjobs _ pick).turned hnone
  · exact (world.shutdownTurn_still hjobs _ pick).turned hnone

end

theorem runThread_turned (index : Nat) :
    Turned world.session.fate world.telling (world.attempt? (.thread index))
      (world.runThread index).session.fate (world.runThread index).telling := by
  have hstay : Turned world.session.fate world.telling none world.session.fate world.telling := by
    refine .face .same ?_
    rw [List.append_nil]
  rw [runThread, attempt?]
  cases hthread : world.threads[index]? with
  | none => exact hstay
  | some thread =>
      cases thread with
      | nil => exact hstay
      | cons errand rest =>
          -- What the others are about to tell stands around what this thread is.
          obtain ⟨hindex, hget⟩ := List.getElem?_eq_some_iff.mp hthread
          obtain ⟨front, back, hset⟩ := filterMap_set Errand.telling? hindex
          have htelling : ∀ thread, tellingIn world.jobs
              ++ tellingBy (world.threads.set index thread).flatten
                = (tellingIn world.jobs ++ front) ++ (tellingBy thread ++ back) := by
            intro thread
            rw [tellingBy, hset, List.append_assoc]
            rfl
          have hbefore : world.telling
              = (tellingIn world.jobs ++ front) ++ (tellingBy (errand :: rest) ++ back) := by
            rw [← htelling, ← hget, List.set_getElem_self]
            rfl
          rw [hbefore]
          simp only [telling, htelling, tellingBy_append]
          rcases world.session.runErrand_faced errand with
            ⟨reason, rfl, hnone, hfate⟩ | ⟨hmute, hfaced⟩
          · rw [hnone, hfate]
            exact .tell List.perm_middle
          · refine .face hfaced ?_
            have hrest : tellingBy (errand :: rest) = tellingBy rest :=
              List.filterMap_cons_none hmute
            rw [hrest, List.append_assoc (tellingBy _) (tellingBy rest) back,
              List.append_assoc _ _ (tellingBy _)]
            exact List.perm_append_comm.append_left _

theorem drive_turned (pick : Pick) :
    Turned world.session.fate world.telling (world.attempt? (.drive pick))
      (world.drive pick).session.fate (world.drive pick).telling := by
  rw [drive, attempt?]
  split
  · rename_i job rest hjobs
    rw [hjobs]
    simp only [telling, hjobs, tellingIn_append]
    rcases world.session.runJob_faced job with ⟨reason, rfl, hnone, hfate⟩ | ⟨hmute, hfaced⟩
    · rw [hnone, hfate]
      exact .tell (.refl _)
    · refine .face hfaced ?_
      rw [show tellingIn (job :: rest) = tellingIn rest from List.filterMap_cons_none hmute,
        List.append_assoc]
      exact List.perm_append_comm
  · rename_i sequel hjobs hsequel
    rw [hjobs]
    exact (world.conclude_still hjobs sequel).turned (congrArg tellingIn hjobs)
  · rename_i hjobs hsequel
    rw [hjobs]
    exact world.turn_turned hjobs pick

/-- The list is complete. -/
theorem step_turned (move : Move E N) :
    Turned world.session.fate world.telling (world.attempt? move)
      (world.step move).session.fate (world.step move).telling := by
  have hstay : Turned world.session.fate world.telling none world.session.fate world.telling := by
    refine .face .same ?_
    rw [List.append_nil]
  cases move with
  | spawn program =>
      have hthreads : tellingBy (world.threads ++ [[Errand.hook program]]).flatten
          = tellingBy world.threads.flatten := by
        rw [List.flatten_append, tellingBy_append]
        exact List.append_nil _
      have hsame : (world.step (.spawn program)).telling = world.telling :=
        congrArg (tellingIn world.jobs ++ ·) hthreads
      rw [hsame]
      exact hstay
  | thread index => exact world.runThread_turned index
  | attach options duplex =>
      rw [step, Session.attach]
      split
      · rename_i hattach
        split at hattach
        · cases hattach
          exact hstay
        · cases hattach
      · exact hstay
  | surround surroundings => exact hstay
  | transport duplex => exact hstay
  | drive pick => exact world.drive_turned pick

end World

end PhaseWire
