import PhaseWire.Proofs.Codec.Packets
import PhaseWire.Proofs.Interleaving.Errand
import PhaseWire.Session.Turn

/-
# The session's own work, piece by piece

What a session does of its own is cut at the same places: a `Job` looks at
the session or changes it once, or calls the application once, and leaves
the jobs that come after it.  Between two jobs other calls may come in, and
may close the session.  A job that only touches the codec is not cut
further, because nobody else sees the codec.

`Worked` says what a job does to the books.  Beside the books there is a
`Record` of things that no part of the running session keeps: who of those
that the listener asked for was accepted, which frames were encoded, and
what became of their bytes.
-/

namespace PhaseWire

variable {E N : Type}

/-- A piece of the session's own work. -/
inductive Job (E N : Type)
  | errand (errand : Errand E N)
  | execute (command : Command E)
  /-- Look whether the session is open before a packet is written.  A program that asked for the
  packet waits for the answer. -/
  | write (packet : Packet E) (tag? : Option Tag) (next? : Option (Reply → Script E N))
  /-- Move to the packet's phase. -/
  | approach (packet : Packet E) (tag? : Option Tag) (next? : Option (Reply → Script E N))
  | encode (packet : Packet E) (tag? : Option Tag) (next? : Option (Reply → Script E N))
  /-- Let everybody see the phase in which packets are encoded and decoded by now. -/
  | enter (phase : Phase)
  /-- Tell the listener of a phase. -/
  | tell (phase : Phase)
  | complete (tag? : Option Tag) (result : Except Fault Unit)
  /-- Run the rest of a program. -/
  | script (rest : Script E N)
  /-- Look whether the session is open before a packet is handled. -/
  | receive (packet : Packet E)
  | handle (packet : Packet E)
  | fail (fault : Fault)
  | failIfOpen (fault : Fault)
  | tick
  | probe

/-- What a run has done and no event tells. -/
structure Record where
  /-- Who sent a packet in a program of the listener and got no fault for an answer. -/
  answered : List Tag
  /-- Whose packet in a program of the listener could not be encoded. -/
  refused : List Tag
  /-- The frames that were encoded, with those who wait for them. -/
  frames : List (Option Tag × Bytes)
  /-- The bytes that the transport has taken. -/
  handed : Bytes
  /-- How many frames there were when a flush last succeeded. -/
  flushed : Nat

/-- Nothing was done. -/
def Record.new : Record :=
  ⟨[], [], [], [], 0⟩

def Record.hand (record : Record) (bytes : Bytes) : Record :=
  { record with handed := record.handed ++ bytes }

def Record.flush (record : Record) : Record :=
  { record with flushed := record.frames.length }

/-- What a program does with the answer to a packet. -/
def resume (next? : Option (Reply → Script E N)) (result : Except Fault Unit) :
    List (Job E N) :=
  match next? with
  | some next => [.script (next (.outcome result))]
  | none => []

/-- Who asked for a packet in a program. -/
def asking (next? : Option (Reply → Script E N)) (tag? : Option Tag) : List Tag :=
  match next? with
  | some _ => tag?.toList
  | none => []

/-! ## What jobs are about -/

def goodNews (tag? : Option Tag) : Except Fault Unit → Option Tag
  | .ok () => tag?
  | .error _ => none

namespace Job

def inHand? : Job E N → Option (Command E)
  | execute command => some command
  | _ => none

def dropped? : Job E N → Option (Command E)
  | errand task => task.dropped?
  | _ => none

/-- Who will hear from a job, or from what it leaves. -/
def owed? : Job E N → Option Tag
  | errand task => task.dropped?.bind Command.tag?
  | execute command => command.tag?
  | write _ tag? none | approach _ tag? none | encode _ tag? none => tag?
  | complete tag? _ => tag?
  | _ => none

/-- Who will hear good news from a job. -/
def cheered? : Job E N → Option Tag
  | complete tag? result => goodNews tag? result
  | _ => none

/-- Nobody waits for a job, and it is about no command. -/
def IsIdle : Job E N → Prop
  | errand task => task.dropped? = none
  | write _ tag? next? => next? = none → tag? = none
  | execute _ | approach _ _ _ | encode _ _ _ | complete _ _ => False
  | _ => True

end Job

def inHand (jobs : List (Job E N)) : List (Command E) :=
  jobs.filterMap Job.inHand?

def droppedIn (jobs : List (Job E N)) : List (Command E) :=
  jobs.filterMap Job.dropped?

@[simp] theorem inHand_append (jobs rest : List (Job E N)) :
    inHand (jobs ++ rest) = inHand jobs ++ inHand rest :=
  List.filterMap_append

@[simp] theorem droppedIn_append (jobs rest : List (Job E N)) :
    droppedIn (jobs ++ rest) = droppedIn jobs ++ droppedIn rest :=
  List.filterMap_append

theorem inHand_idle {jobs : List (Job E N)} (h : ∀ job ∈ jobs, job.IsIdle) : inHand jobs = [] := by
  refine List.filterMap_eq_nil_iff.mpr fun job hjob => ?_
  have hidle := h job hjob
  cases job with
  | execute command => exact hidle.elim
  | _ => rfl

theorem droppedIn_idle {jobs : List (Job E N)} (h : ∀ job ∈ jobs, job.IsIdle) :
    droppedIn jobs = [] := by
  refine List.filterMap_eq_nil_iff.mpr fun job hjob => ?_
  have hidle := h job hjob
  cases job with
  | errand task => exact hidle
  | _ => rfl

theorem inHand_errands (errands : List (Errand E N)) : inHand (errands.map Job.errand) = [] := by
  rw [inHand, List.filterMap_map]
  exact List.filterMap_eq_nil_iff.mpr fun errand _ => rfl

theorem inHand_executes (commands : List (Command E)) :
    inHand (commands.map (Job.execute (N := N))) = commands := by
  rw [inHand, List.filterMap_map]
  exact List.filterMap_some

theorem droppedIn_executes (commands : List (Command E)) :
    droppedIn (commands.map (Job.execute (N := N))) = [] := by
  rw [droppedIn, List.filterMap_map]
  exact List.filterMap_eq_nil_iff.mpr fun command _ => rfl

theorem idle_resume (next? : Option (Reply → Script E N)) (result : Except Fault Unit) :
    ∀ job ∈ resume next? result, job.IsIdle := by
  intro job hjob
  cases next? with
  | none => cases hjob
  | some next =>
      rw [List.mem_singleton.mp hjob]
      exact True.intro

theorem droppedIn_errands (errands : List (Errand E N)) :
    droppedIn (errands.map Job.errand) = droppedBy errands := by
  rw [droppedIn, List.filterMap_map]
  rfl

/-! ## Doing a job -/

variable [CustomPackets E]

namespace Session

def beginPhase (session : Session E N) (phase : Phase) : List (Job E N) × Session E N :=
  if session.codec.phase = phase then ([], session)
  else ([.enter phase], session.retunePhase phase)

def beginApproach (session : Session E N) (phase : Phase) : List (Job E N) × Session E N :=
  if session.codec.phase = phase then ([], session)
  else { session with reading := false }.beginPhase phase

def runCommand (session : Session E N) : Command E → List (Job E N) × Session E N
  | .send packet tag? => ([.write packet tag? none], session)
  | .setPhase phase =>
    if session.codec.phase.canMoveTo phase then session.beginPhase phase else ([], session)
  | .setThreshold threshold => ([], (session.setThreshold threshold).2)
  | .encrypt key => ([], (session.encrypt key).2)

def beginWrite (session : Session E N) (packet : Packet E) (tag? : Option Tag)
    (next? : Option (Reply → Script E N)) : List (Job E N) :=
  if session.isClosed then .complete tag? (.error .closed) :: resume next? (.ok ())
  else [.approach packet tag? next?]

def runApproach (session : Session E N) (packet : Packet E) (tag? : Option Tag)
    (next? : Option (Reply → Script E N)) : List (Job E N) × Session E N :=
  match session.registry.ofPacket packet with
  | .error fault => (resume next? (.error fault), session)
  | .ok descriptor =>
    let (jobs, session) := session.beginApproach descriptor.phase
    (jobs ++ [.encode packet tag? next?], session)

def runEncode (session : Session E N) (packet : Packet E) (tag? : Option Tag)
    (next? : Option (Reply → Script E N)) : List (Job E N) × Session E N :=
  match session.codec.encode packet with
  | .ok (sent, codec) =>
    (resume next? (.ok ()),
      { session with
        codec
        outgoing := session.outgoing ++ sent.wire
        tags := session.tags ++ tag?.toList }.log (.written packet))
  | .error fault =>
    (.complete tag? (.error .closed) :: .errand (.close fault.message false)
      :: resume next? (.error fault), session)

/-- Begins an action of a program. -/
def runAction (session : Session E N) (action : Action E) (next : Reply → Script E N) :
    List (Job E N) × Session E N :=
  match action with
  | .send packet tag? => ([.write packet tag? (some next)], session)
  | .setPhase phase =>
    if session.codec.phase.canMoveTo phase then
      let (jobs, session) := session.beginPhase phase
      (jobs ++ [.script (next (.outcome (.ok ())))], session)
    else
      let (reply, session) := session.act (.setPhase phase)
      ([.script (next reply)], session)
  | .call call =>
    let (reply, errands, session) := session.enterCall call
    (errands.map .errand ++ [.script (next reply)], session)
  | action =>
    let (reply, session) := session.act action
    ([.script (next reply)], session)

/-- Runs a program up to its next step. -/
def runScriptStep (session : Session E N) : Script E N → List (Job E N) × Session E N
  | .done (.ok ()) => ([], session)
  | .done (.error fault) => ([.errand (.close fault.message false)], session)
  | .note note next => ([.script next], session.log (.note note))
  | .look next => ([.script (next session.view)], session)
  | .act action next => session.runAction action next

def runHandle (session : Session E N) (packet : Packet E) : List (Job E N) × Session E N :=
  let dispatched := ([.script (session.listener.onPacket packet)], session.log (.packet packet))
  if !session.keepsAlive then dispatched
  else match session.options.side, packet with
    | .server, .core (.serverboundKeepAlive id) => ([], session.hear (some id))
    | .client, .core (.clientboundKeepAlive id) =>
      ([.write (.core (.serverboundKeepAlive id)) none none], session.hear none)
    | _, _ => dispatched

def countFault (session : Session E N) (fault : Fault) : Session E N :=
  if fault.byPeer then session.count Metrics.protocolError
  else session.count Metrics.connectionError

/-- Checks at a tick that the peer was heard of. -/
def runTick (session : Session E N) : List (Job E N) × Session E N :=
  if session.codec.phase ≠ .play then ([], session)
  else
    let (alive, errands, session) := session.enterCheck session.options.keepaliveTimeout
    (errands.map .errand ++ (if alive && session.options.side = .server then [.probe] else []),
      session)

def runProbe (session : Session E N) : List (Job E N) × Session E N :=
  let id := session.surroundings.random
  ([.write (.core (.clientboundKeepAlive id)) none none], { session with probe? := some id })

/-- Does a job, and says what is left of it. -/
def runJob (session : Session E N) : Job E N → List (Job E N) × Session E N
  | .errand errand =>
    let (errands, session) := session.runErrand errand
    (errands.map .errand, session)
  | .execute command => (session.log (.executed command)).runCommand command
  | .write packet tag? next? => (session.beginWrite packet tag? next?, session)
  | .approach packet tag? next? => session.runApproach packet tag? next?
  | .encode packet tag? next? => session.runEncode packet tag? next?
  | .enter phase => ([.tell phase], session.showPhase phase)
  | .tell phase =>
    ([.errand (.hook (session.listener.onPhase phase))], session.log (.phase phase))
  | .complete tag? result => ([], session.complete tag? result)
  | .script rest => session.runScriptStep rest
  | .receive packet => (if session.isClosed then [] else [.handle packet], session)
  | .handle packet => session.runHandle packet
  | .fail fault => ([.errand (.close fault.message false)], session.countFault fault)
  | .failIfOpen fault => (if session.isClosed then [] else [.fail fault], session)
  | .tick => session.runTick
  | .probe => session.runProbe

end Session

/-- Takes down what a job is about to do. -/
def Record.note (record : Record) (session : Session E N) : Job E N → Record
  | .write _ tag? next? =>
    if session.isClosed then { record with answered := record.answered ++ asking next? tag? }
    else record
  | .encode packet tag? next? =>
    match session.codec.encode packet with
    | .ok (sent, _) =>
      { record with
        answered := record.answered ++ asking next? tag?
        frames := record.frames ++ [(tag?, sent.wire)] }
    | .error _ => { record with refused := record.refused ++ asking next? tag? }
  | _ => record

/-! ## What a job does to the books -/

/-- All that a job does to the books and to the record, with what it leaves to do. -/
inductive Worked (books : Books E) (record : Record) :
    Job E N → List (Job E N) → Books E → Record → Prop
  | abandon (command : Command E) :
      Worked books record (.errand (.abandon command)) [] (books.abandon command) record
  /-- One critical section of a call, or less. -/
  | call {job : Job E N} {errands : List (Errand E N)} {jobs : List (Job E N)} {next : Books E} :
      job.IsIdle → (∀ job ∈ jobs, job.IsIdle) → Handled books (droppedBy errands) next →
      Worked books record job (errands.map .errand ++ jobs) next record
  | send (packet : Packet E) (tag? : Option Tag) :
      Worked books record (.execute (.send packet tag?)) [.write packet tag? none]
        { books with executed := books.executed ++ [.send packet tag?] } record
  | change {command : Command E} {jobs : List (Job E N)} :
      command.tag? = none → (∀ job ∈ jobs, job.IsIdle) →
      Worked books record (.execute command) jobs
        { books with executed := books.executed ++ [command] } record
  /-- A packet comes too late. -/
  | late (packet : Packet E) (tag? : Option Tag) (next? : Option (Reply → Script E N)) :
      books.lifecycle = .closed →
      Worked books record (.write packet tag? next?)
        (.complete tag? (.error .closed) :: resume next? (.ok ())) books
        { record with answered := record.answered ++ asking next? tag? }
  /-- A packet comes in time. -/
  | timely (packet : Packet E) (tag? : Option Tag) (next? : Option (Reply → Script E N)) :
      books.lifecycle ≠ .closed →
      Worked books record (.write packet tag? next?) [.approach packet tag? next?] books record
  /-- A packet is of no registered type. -/
  | strange (packet : Packet E) (tag? : Option Tag) (next? : Option (Reply → Script E N))
      (fault : Fault) : books.registry.ofPacket packet = .error fault →
      Worked books record (.approach packet tag? next?) (resume next? (.error fault)) books record
  | approach (packet : Packet E) (tag? : Option Tag) (next? : Option (Reply → Script E N))
      {jobs : List (Job E N)} : (∀ job ∈ jobs, job.IsIdle) →
      Worked books record (.approach packet tag? next?) (jobs ++ [.encode packet tag? next?]) books
        record
  | encoded (packet : Packet E) (tag? : Option Tag) (next? : Option (Reply → Script E N))
      (wire : Bytes) :
      Worked books record (.encode packet tag? next?) (resume next? (.ok ()))
        { books with outgoing := books.outgoing ++ wire, tags := books.tags ++ tag?.toList }
        { record with
          answered := record.answered ++ asking next? tag?
          frames := record.frames ++ [(tag?, wire)] }
  | broken (packet : Packet E) (tag? : Option Tag) (next? : Option (Reply → Script E N))
      (fault : Fault) :
      Worked books record (.encode packet tag? next?)
        (.complete tag? (.error .closed) :: .errand (.close fault.message false)
          :: resume next? (.error fault)) books
        { record with refused := record.refused ++ asking next? tag? }
  | complete (tag? : Option Tag) (result : Except Fault Unit) :
      Worked books record (.complete tag? result) []
        { books with completed := books.completed ++ completions tag? result } record

theorem Worked.idle {books next : Books E} {record : Record} {job : Job E N}
    {jobs : List (Job E N)} (hjob : job.IsIdle) (hjobs : ∀ job ∈ jobs, job.IsIdle)
    (hbooks : next = books) : Worked books record job jobs next record := by
  have h : Worked books record job (([] : List (Errand E N)).map .errand ++ jobs) books record :=
    .call hjob hjobs .same
  rw [hbooks]
  exact h

namespace Session

variable (session : Session E N)

theorem beginPhase_quiet (phase : Phase) :
    (∀ job ∈ (session.beginPhase phase).1, job.IsIdle)
      ∧ (session.beginPhase phase).2.books = session.books := by
  rw [beginPhase]
  split
  · exact ⟨List.forall_mem_nil _, rfl⟩
  · exact ⟨List.forall_mem_singleton.mpr True.intro, rfl⟩

theorem beginApproach_quiet (phase : Phase) :
    (∀ job ∈ (session.beginApproach phase).1, job.IsIdle)
      ∧ (session.beginApproach phase).2.books = session.books := by
  rw [beginApproach]
  split
  · exact ⟨List.forall_mem_nil _, rfl⟩
  · exact { session with reading := false }.beginPhase_quiet phase

theorem books_encrypt (key : Bytes) : (session.encrypt key).2.books = session.books := by
  simp only [encrypt]
  split
  · rfl
  · split
    · rfl
    · split
      · rfl
      · rfl

theorem books_setThreshold (threshold : Int32) :
    (session.setThreshold threshold).2.books = session.books := by
  rw [setThreshold]
  split
  · split
    · rfl
    · rfl
  · simp only [compressFrom]
    split
    · rfl
    · split
      · rfl
      · rfl

theorem books_enableCompression :
    (session.enableCompression).2.books = session.books := by
  rw [enableCompression]
  split
  · rfl
  · exact session.books_setThreshold _

theorem runCommand_worked (record : Record) (command : Command E) :
    Worked session.books record (.execute command)
      ((session.log (.executed command)).runCommand command).1
      ((session.log (.executed command)).runCommand command).2.books record := by
  have hbooks := session.books_log_executed command
  cases command with
  | send packet tag? =>
      rw [runCommand, hbooks]
      exact .send packet tag?
  | setPhase phase =>
      rw [runCommand]
      split
      · obtain ⟨hjobs, hphase⟩ := (session.log (.executed (.setPhase phase))).beginPhase_quiet phase
        rw [hphase, hbooks]
        exact .change rfl hjobs
      · rw [hbooks]
        exact .change rfl (List.forall_mem_nil _)
  | setThreshold threshold =>
      rw [runCommand, books_setThreshold, hbooks]
      exact .change rfl (List.forall_mem_nil _)
  | encrypt key =>
      rw [runCommand, books_encrypt, hbooks]
      exact .change rfl (List.forall_mem_nil _)

theorem beginWrite_worked (record : Record) (packet : Packet E) (tag? : Option Tag)
    (next? : Option (Reply → Script E N)) :
    Worked session.books record (.write packet tag? next?) (session.beginWrite packet tag? next?)
      session.books (record.note session (.write packet tag? next?)) := by
  rw [beginWrite, Record.note]
  split
  · rename_i hclosed
    exact .late packet tag? next? (isClosed_iff.mp hclosed)
  · rename_i hopen
    exact .timely packet tag? next? fun hclosed => hopen (isClosed_iff.mpr hclosed)

theorem runApproach_worked (record : Record) (packet : Packet E) (tag? : Option Tag)
    (next? : Option (Reply → Script E N)) :
    Worked session.books record (.approach packet tag? next?)
      (session.runApproach packet tag? next?).1 (session.runApproach packet tag? next?).2.books
      record := by
  rw [runApproach]
  cases hpacket : session.registry.ofPacket packet with
  | error fault => exact .strange packet tag? next? fault hpacket
  | ok descriptor =>
      obtain ⟨hjobs, hbooks⟩ := session.beginApproach_quiet descriptor.phase
      simp only [hbooks]
      exact .approach packet tag? next? hjobs

theorem runEncode_worked (record : Record) (packet : Packet E) (tag? : Option Tag)
    (next? : Option (Reply → Script E N)) :
    Worked session.books record (.encode packet tag? next?)
      (session.runEncode packet tag? next?).1 (session.runEncode packet tag? next?).2.books
      (record.note session (.encode packet tag? next?)) := by
  rw [runEncode, Record.note]
  cases hencode : session.codec.encode packet with
  | error fault => exact .broken packet tag? next? fault
  | ok result =>
      obtain ⟨sent, codec⟩ := result
      have hbooks : ({ session with
          codec
          outgoing := session.outgoing ++ sent.wire
          tags := session.tags ++ tag?.toList }.log (.written packet)).books
            = { session.books with
                outgoing := session.books.outgoing ++ sent.wire
                tags := session.books.tags ++ tag?.toList } := by
        rw [books_log _ rfl rfl rfl rfl]
        simp only [books, registry, ConnectionCodec.registry_encode hencode]
      simp only [hbooks]
      exact .encoded packet tag? next? sent.wire

theorem runAction_worked (record : Record) (action : Action E) (next : Reply → Script E N) :
    Worked session.books record (.script (.act action next)) (session.runAction action next).1
      (session.runAction action next).2.books record := by
  have hnext : ∀ reply, ∀ job ∈ [Job.script (next reply)], job.IsIdle :=
    fun _ => List.forall_mem_singleton.mpr True.intro
  cases action with
  | send packet tag? =>
      exact .idle True.intro (List.forall_mem_singleton.mpr fun h => nomatch h) rfl
  | setPhase phase =>
      rw [runAction]
      split
      · obtain ⟨hjobs, hbooks⟩ := session.beginPhase_quiet phase
        exact .idle True.intro (List.forall_mem_append.mpr ⟨hjobs, hnext _⟩) hbooks
      · rename_i hstay
        simp only [act, setPhase, if_neg hstay]
        exact .idle True.intro (hnext _) rfl
  | setThreshold threshold =>
      exact .idle True.intro (hnext _) (session.books_setThreshold threshold)
  | enableCompression => exact .idle True.intro (hnext _) session.books_enableCompression
  | encrypt key => exact .idle True.intro (hnext _) (session.books_encrypt key)
  | call call => exact .call True.intro (hnext _) (session.enterCall_handled call)

theorem runScriptStep_worked (record : Record) (rest : Script E N) :
    Worked session.books record (.script rest) (session.runScriptStep rest).1
      (session.runScriptStep rest).2.books record := by
  cases rest with
  | done result =>
      cases result with
      | ok _ => exact .idle True.intro (List.forall_mem_nil _) rfl
      | error fault => exact .idle True.intro (List.forall_mem_singleton.mpr rfl) rfl
  | note note next =>
      exact .idle True.intro (List.forall_mem_singleton.mpr True.intro)
        (books_log session rfl rfl rfl rfl)
  | look next => exact .idle True.intro (List.forall_mem_singleton.mpr True.intro) rfl
  | act action next => exact session.runAction_worked record action next

theorem runHandle_worked (record : Record) (packet : Packet E) :
    Worked session.books record (.handle packet) (session.runHandle packet).1
      (session.runHandle packet).2.books record := by
  have hdispatched : Worked session.books record (.handle packet)
      [.script (session.listener.onPacket packet)] (session.log (.packet packet)).books record :=
    .idle True.intro (List.forall_mem_singleton.mpr True.intro) (books_log session rfl rfl rfl rfl)
  unfold runHandle
  dsimp only
  split
  · exact hdispatched
  · split
    · exact .idle True.intro (List.forall_mem_nil _) rfl
    · exact .idle True.intro (List.forall_mem_singleton.mpr fun _ => rfl) rfl
    · exact hdispatched

theorem runTick_worked (record : Record) :
    Worked session.books record .tick session.runTick.1 session.runTick.2.books record := by
  rw [runTick]
  split
  · exact .idle True.intro (List.forall_mem_nil _) rfl
  · refine .call True.intro ?_ (session.enterCheck_handled session.options.keepaliveTimeout)
    split
    · exact List.forall_mem_singleton.mpr True.intro
    · exact List.forall_mem_nil _

/-- A job does one thing to the books. -/
theorem runJob_worked (record : Record) (job : Job E N) :
    Worked session.books record job (session.runJob job).1 (session.runJob job).2.books
      (record.note session job) := by
  cases job with
  | errand task =>
      rcases session.runErrand_handled task with ⟨command, rfl, hrun⟩ | ⟨hdropped, hhandled⟩
      · simp only [runJob, hrun, books_abandon]
        exact .abandon command
      · have h : Worked session.books record (.errand task)
            ((session.runErrand task).1.map .errand ++ [])
            (session.runErrand task).2.books record :=
          .call hdropped (List.forall_mem_nil _) hhandled
        rw [List.append_nil] at h
        exact h
  | execute command => exact session.runCommand_worked record command
  | write packet tag? next? => exact session.beginWrite_worked record packet tag? next?
  | approach packet tag? next? => exact session.runApproach_worked record packet tag? next?
  | encode packet tag? next? => exact session.runEncode_worked record packet tag? next?
  | enter phase => exact .idle True.intro (List.forall_mem_singleton.mpr True.intro) rfl
  | tell phase =>
      exact .idle True.intro (List.forall_mem_singleton.mpr rfl) (books_log session rfl rfl rfl rfl)
  | complete tag? result =>
      rw [runJob, books_complete]
      exact .complete tag? result
  | script rest => exact session.runScriptStep_worked record rest
  | receive packet =>
      rw [runJob]
      split
      · exact .idle True.intro (List.forall_mem_nil _) rfl
      · exact .idle True.intro (List.forall_mem_singleton.mpr True.intro) rfl
  | handle packet => exact session.runHandle_worked record packet
  | fail fault =>
      rw [runJob, countFault]
      split
      · exact .idle True.intro (List.forall_mem_singleton.mpr rfl) rfl
      · exact .idle True.intro (List.forall_mem_singleton.mpr rfl) rfl
  | failIfOpen fault =>
      rw [runJob]
      split
      · exact .idle True.intro (List.forall_mem_nil _) rfl
      · exact .idle True.intro (List.forall_mem_singleton.mpr True.intro) rfl
  | tick => exact session.runTick_worked record
  | probe => exact .idle True.intro (List.forall_mem_singleton.mpr fun _ => rfl) rfl

end Session
end PhaseWire
