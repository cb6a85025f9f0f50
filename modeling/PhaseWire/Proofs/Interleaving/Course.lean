import Mathlib.Data.List.Chain
import PhaseWire.Proofs.Interleaving.Writes

/-
# The course of a session through its phases

The phase is kept twice: where packets are encoded and decoded, and where
everybody can see it.  A request moves the session only if a connection may
move there; a write moves it to the phase of the packet without asking.  A
change takes three jobs: the codec changes first, then everybody sees the
phase, and then the listener is told.  They follow each other at once
(`IsSound`), so that both accounts agree whenever no change is under way.

`Steered` lists what one job does to the phase and to what the listener
gets to see.  The course is part of the `Bearing` of a session, which calls
and errands leave alone as a whole.

Between the change of a write and its frame there are only steps of the
change, and these leave the codec alone.  So a packet is only encoded in
its phase (`IsAimed`).
-/

namespace PhaseWire

variable {E N : Type}

/-! ## What the listener gets to see -/

/-- The listener was told of a phase. -/
def Event.phase? : Event E N → Option Phase
  | phase entered => some entered
  | _ => none

def Job.asked? : Job E N → Option Phase
  | execute (.setPhase phase) => some phase
  | script (.act (.setPhase phase) _) => some phase
  | _ => none

/-- The phase that the session has moved to and the listener is about to be told of. -/
def Job.change? : Job E N → Option Phase
  | enter phase | tell phase => some phase
  | _ => none

theorem Job.change?_of_asked {job : Job E N} {phase : Phase} (h : job.asked? = some phase) :
    job.change? = none := by
  cases job with
  | enter other => cases h
  | tell other => cases h
  | _ => rfl

/-- The phase that everybody can see and the listener is about to be told of. -/
def Job.shown? : Job E N → Option Phase
  | tell phase => some phase
  | _ => none

/-- The changes of phase that jobs are about to tell the listener of. -/
def changesIn (jobs : List (Job E N)) : List Phase :=
  jobs.filterMap Job.change?

/-- Those of them that everybody can see. -/
def shownIn (jobs : List (Job E N)) : List Phase :=
  jobs.filterMap Job.shown?

@[simp] theorem changesIn_append (jobs more : List (Job E N)) :
    changesIn (jobs ++ more) = changesIn jobs ++ changesIn more :=
  List.filterMap_append

@[simp] theorem shownIn_append (jobs more : List (Job E N)) :
    shownIn (jobs ++ more) = shownIn jobs ++ shownIn more :=
  List.filterMap_append

/-- What is to be shown is to be told. -/
theorem shown_none {job : Job E N} (h : job.change? = none) : job.shown? = none := by
  cases job with
  | tell phase => cases h
  | _ => rfl

theorem shownIn_nil {jobs : List (Job E N)} (h : changesIn jobs = []) : shownIn jobs = [] :=
  List.filterMap_eq_nil_iff.mpr fun job hjob =>
    shown_none (List.filterMap_eq_nil_iff.mp h job hjob)

theorem changesIn_errands (errands : List (Errand E N)) :
    changesIn (errands.map Job.errand) = [] := by
  rw [changesIn, List.filterMap_map]
  exact List.filterMap_eq_nil_iff.mpr fun _ _ => rfl

theorem changesIn_executes (commands : List (Command E)) :
    changesIn (commands.map (Job.execute (N := N))) = [] := by
  rw [changesIn, List.filterMap_map]
  exact List.filterMap_eq_nil_iff.mpr fun _ _ => rfl

theorem changesIn_resume (next? : Option (Reply → Script E N)) (result : Except Fault Unit) :
    changesIn (resume next? result) = [] := by
  cases next? with
  | none => rfl
  | some next => rfl

theorem changesIn_bury (flush : Flush) (fault : Fault) :
    changesIn (World.bury (E := E) (N := N) flush fault) = [] := by
  rw [World.bury, World.tell, changesIn_append, changesIn, List.filterMap_map]
  exact List.append_eq_nil_iff.mpr ⟨List.filterMap_eq_nil_iff.mpr fun _ _ => rfl, rfl⟩

theorem changesIn_tell (tags : List Tag) (result : Except Fault Unit) :
    changesIn (World.tell (E := E) (N := N) tags result) = [] := by
  rw [World.tell, changesIn, List.filterMap_map]
  exact List.filterMap_eq_nil_iff.mpr fun _ _ => rfl

/-- What a request for a phase goes on with when it is answered.  Nobody waits for a command. -/
def Job.answer (result : Except Fault Unit) : Job E N → List (Job E N)
  | script (.act (.setPhase _) next) => [.script (next (.outcome result))]
  | _ => []

variable [CustomPackets E]

/-- Where a session is, by both accounts, and what its listener was told of phases and packets. -/
structure Course (E : Type) [CustomPackets E] where
  /-- The phase in which packets are encoded and decoded, with the types of packets. -/
  packets : PacketCodec E
  /-- The phase that everybody sees. -/
  phase : Phase
  /-- The phases that the listener was told of. -/
  entered : List Phase
  /-- The packets that the listener was given. -/
  received : List (Packet E)

namespace Course

/-- Packets are encoded and decoded in a phase from here on. -/
def retune (course : Course E) (phase : Phase) : Course E :=
  { course with packets := { course.packets with phase } }

/-- Everybody sees a phase from here on. -/
def enter (course : Course E) (phase : Phase) : Course E :=
  { course with phase }

/-- The listener is told of a phase. -/
def tell (course : Course E) (phase : Phase) : Course E :=
  { course with entered := course.entered ++ [phase] }

/-- The listener is given a packet. -/
def receive (course : Course E) (packet : Packet E) : Course E :=
  { course with received := course.received ++ [packet] }

/-- The notifications that the listener got and will get at once tell of one change each, the last of
them of where packets are encoded and decoded, and the last of those that everybody sees of the
phase there. -/
structure IsSound (course : Course E) (jobs : List (Job E N)) : Prop where
  chain : (.handshake :: (course.entered ++ changesIn jobs)).IsChain (· ≠ ·)
  codec : (course.entered ++ changesIn jobs).getLastD .handshake = course.packets.phase
  shown : (course.entered ++ shownIn jobs).getLastD .handshake = course.phase
  /-- A change that has begun goes on at once. -/
  first : changesIn jobs.tail = []

/-- The session is in the phase of every packet that jobs are about to encode. -/
def IsAimed (course : Course E) (jobs : List (Job E N)) : Prop :=
  ∀ packet tag? next?, Job.encode packet tag? next? ∈ jobs → ∃ descriptor,
    course.packets.registry.ofPacket packet = .ok descriptor
      ∧ course.packets.phase = descriptor.phase

end Course

def Session.course (session : Session E N) : Course E where
  packets := session.codec.packets
  phase := session.phase
  entered := session.events.filterMap Event.phase?
  received := session.events.filterMap Event.packet?

/-- The course of a session, and what it knows of its peer and of its surroundings.  Of its own work
only jobs change any of this. -/
structure Bearing (E : Type) [CustomPackets E] where
  course : Course E
  side : Side
  surroundings : Surroundings
  lastHeard : Instant
  probe? : Option Int32

def Session.bearing (session : Session E N) : Bearing E where
  course := session.course
  side := session.options.side
  surroundings := session.surroundings
  lastHeard := session.lastHeard
  probe? := session.probe?

/-- All that a job does to the course of a session, with the jobs that it leaves if it does
anything. -/
inductive Steered (fate : Fate E N) (course : Course E) :
    Job E N → List (Job E N) → Course E → Prop
  | same {job : Job E N} {jobs : List (Job E N)} : job.change? = none → changesIn jobs = [] →
      Steered fate course job jobs course
  /-- A request is granted. -/
  | command {phase : Phase} : course.packets.phase.canMoveTo phase → course.packets.phase ≠ phase →
      Steered fate course (.execute (.setPhase phase)) [.enter phase] (course.retune phase)
  /-- A request that a program makes is granted. -/
  | action {phase : Phase} {next : Reply → Script E N} :
      course.packets.phase.canMoveTo phase → course.packets.phase ≠ phase →
      Steered fate course (.script (.act (.setPhase phase) next))
        [.enter phase, .script (next (.outcome (.ok ())))] (course.retune phase)
  /-- A write comes from another phase. -/
  | approach {packet : Packet E} {tag? : Option Tag} {next? : Option (Reply → Script E N)}
      {descriptor : Descriptor E} : course.packets.registry.ofPacket packet = .ok descriptor →
      course.packets.phase ≠ descriptor.phase →
      Steered fate course (.approach packet tag? next?)
        [.enter descriptor.phase, .encode packet tag? next?] (course.retune descriptor.phase)
  | enter (phase : Phase) : Steered fate course (.enter phase) [.tell phase] (course.enter phase)
  | tell (phase : Phase) :
      Steered fate course (.tell phase) [.errand (.hook (fate.listener.onPhase phase))]
        (course.tell phase)
  | receive (packet : Packet E) :
      Steered fate course (.handle packet) [.script (fate.listener.onPacket packet)]
        (course.receive packet)

theorem Steered.idle {fate : Fate E N} {session next : Session E N} {job : Job E N}
    {jobs : List (Job E N)} (h : next.bearing = session.bearing) (hjob : job.change? = none)
    (hjobs : changesIn jobs = []) : Steered fate session.course job jobs next.course := by
  rw [show next.course = session.course from congrArg Bearing.course h]
  exact .same hjob hjobs

namespace Course

variable {course next : Course E}

theorem IsSound.still {jobs left : List (Job E N)} (h : course.IsSound jobs)
    (hjobs : changesIn jobs = []) (hleft : changesIn left = []) : course.IsSound left where
  chain := by
    rw [hleft, ← hjobs]
    exact h.chain
  codec := by
    rw [hleft, ← hjobs]
    exact h.codec
  shown := by
    rw [shownIn_nil hleft, ← shownIn_nil hjobs]
    exact h.shown
  first := by
    rw [changesIn, List.filterMap_eq_nil_iff] at hleft ⊢
    exact fun job hjob => hleft job (List.mem_of_mem_tail hjob)

/-- Where no change is under way, everybody sees the phase of the codec. -/
theorem IsSound.agree {jobs : List (Job E N)} (h : course.IsSound jobs)
    (hnone : changesIn jobs = []) : course.phase = course.packets.phase := by
  have hcodec := h.codec
  have hshown := h.shown
  rw [hnone] at hcodec
  rw [shownIn_nil hnone] at hshown
  exact hshown.symm.trans hcodec

/-- A change begins where none is under way. -/
theorem IsSound.retune {jobs left : List (Job E N)} (h : course.IsSound jobs)
    (hjobs : changesIn jobs = []) {phase : Phase} (hphase : course.packets.phase ≠ phase)
    (hleft : changesIn left = []) : (course.retune phase).IsSound (.enter phase :: left) := by
  have hchanges : changesIn (.enter phase :: left) = [phase] := congrArg (phase :: ·) hleft
  have hlast := h.codec
  have hchain := h.chain
  have hshown := h.shown
  rw [hjobs, List.append_nil] at hlast hchain
  rw [shownIn_nil hjobs] at hshown
  constructor
  · rw [hchanges]
    show ((Phase.handshake :: course.entered) ++ [phase]).IsChain (· ≠ ·)
    refine List.isChain_append.mpr ⟨hchain, List.isChain_singleton phase, ?_⟩
    intro last hbefore first hfirst
    rw [List.getLast?_cons, ← List.getLastD_eq_getLast?, hlast] at hbefore
    obtain rfl := Option.mem_some.mp hbefore
    obtain rfl := Option.mem_some.mp hfirst
    exact hphase
  · rw [hchanges]
    exact List.getLastD_concat
  · show (course.entered ++ shownIn left).getLastD .handshake = course.phase
    rw [shownIn_nil hleft]
    exact hshown
  · exact hleft

theorem IsSound.steered {fate : Fate E N} {job : Job E N} {jobs rest : List (Job E N)}
    (h : course.IsSound (job :: rest)) (hsteered : Steered fate course job jobs next) :
    next.IsSound (jobs ++ rest) := by
  have hrest : changesIn rest = [] := h.first
  have hfirst : ∀ {job : Job E N}, job.change? = none → changesIn (job :: rest) = [] :=
    fun hjob => (List.filterMap_cons_none hjob).trans hrest
  cases hsteered with
  | same hjob hjobs =>
      refine h.still (hfirst hjob) ?_
      rw [changesIn_append, hjobs, hrest]
      rfl
  | command hmay hphase => exact h.retune (hfirst rfl) hphase hrest
  | action hmay hphase =>
      exact h.retune (hfirst rfl) hphase ((List.filterMap_cons_none rfl).trans hrest)
  | approach hdescriptor hphase =>
      exact h.retune (hfirst rfl) hphase ((List.filterMap_cons_none rfl).trans hrest)
  | enter phase =>
      have hsame : changesIn (.enter phase :: rest) = changesIn (.tell phase :: rest) := rfl
      have hshown : shownIn (.tell phase :: rest) = [phase] :=
        congrArg (phase :: ·) (shownIn_nil hrest)
      refine ⟨hsame ▸ h.chain, hsame ▸ h.codec, ?_, hrest⟩
      rw [List.singleton_append, hshown]
      exact List.getLastD_concat
  | tell phase =>
      have hchanges : changesIn (.tell phase :: rest) = [phase] := congrArg (phase :: ·) hrest
      have hshown : shownIn (.tell phase :: rest) = [phase] :=
        congrArg (phase :: ·) (shownIn_nil hrest)
      obtain ⟨hchain, hcodec, hlast, -⟩ := h
      rw [hchanges] at hchain hcodec
      rw [hshown] at hlast
      have hnone : changesIn (.errand (.hook (fate.listener.onPhase phase)) :: rest) = [] := hrest
      refine ⟨?_, ?_, ?_, hrest⟩
      · rw [List.singleton_append, hnone, List.append_nil]
        exact hchain
      · rw [List.singleton_append, hnone, List.append_nil]
        exact hcodec
      · rw [List.singleton_append, shownIn_nil hnone, List.append_nil]
        exact hlast
  | receive packet =>
      have hleft : changesIn (.script (fate.listener.onPacket packet) :: rest) = [] := hrest
      have hsame := h.still (hfirst rfl) hleft
      exact ⟨hsame.chain, hsame.codec, hsame.shown, hrest⟩

end Course

/-- A job leaves the codec where it is and tells the listener of nothing but what it had to be told
of, or it moves the session to another phase and leaves it to the next job to show it. -/
theorem Steered.changes {fate : Fate E N} {course next : Course E} {job : Job E N}
    {jobs : List (Job E N)} (h : Steered fate course job jobs next) :
    (next.packets = course.packets
        ∧ next.entered ++ changesIn jobs = course.entered ++ job.change?.toList)
      ∨ (course.packets.phase ≠ next.packets.phase ∧ job.change? = none
        ∧ next.entered = course.entered ∧ changesIn jobs = [next.packets.phase]
        ∧ ∃ rest, jobs = .enter next.packets.phase :: rest) := by
  cases h with
  | same hjob hjobs =>
      rw [hjob, hjobs]
      exact .inl ⟨rfl, rfl⟩
  | command hmay hphase => exact .inr ⟨hphase, rfl, rfl, rfl, [], rfl⟩
  | action hmay hphase => exact .inr ⟨hphase, rfl, rfl, rfl, _, rfl⟩
  | approach hdescriptor hphase => exact .inr ⟨hphase, rfl, rfl, rfl, _, rfl⟩
  | enter phase => exact .inl ⟨rfl, rfl⟩
  | tell phase => exact .inl ⟨rfl, List.append_nil _⟩
  | receive packet => exact .inl ⟨rfl, rfl⟩

theorem Course.IsAimed.calm {course : Course E} {jobs : List (Job E N)}
    (h : ∀ job ∈ jobs, ¬ job.IsEncode) : course.IsAimed jobs :=
  fun _ _ _ hmem => (h _ hmem True.intro).elim

theorem Steered.registry_eq {fate : Fate E N} {course next : Course E} {job : Job E N}
    {jobs : List (Job E N)} (h : Steered fate course job jobs next) :
    next.packets.registry = course.packets.registry := by
  cases h with
  | _ => rfl

/-! ## Calls and errands -/

namespace Session

variable (session : Session E N)

theorem bearing_log {event : Event E N} (hphase : event.phase? = none)
    (hpacket : event.packet? = none) : (session.log event).bearing = session.bearing := by
  simp [bearing, course, log, hphase, hpacket]

theorem course_log {event : Event E N} (hphase : event.phase? = none)
    (hpacket : event.packet? = none) : (session.log event).course = session.course :=
  congrArg Bearing.course (session.bearing_log hphase hpacket)

theorem bearing_complete (tag? : Option Tag) (result : Except Fault Unit) :
    (session.complete tag? result).bearing = session.bearing := by
  cases tag? with
  | none => rfl
  | some tag => exact session.bearing_log rfl rfl

theorem bearing_abandon (command : Command E) :
    (session.abandon command).bearing = session.bearing := by
  rw [abandon, bearing_complete, bearing_log _ rfl rfl]

theorem accept_bearing (command : Command E) :
    (session.accept command).2.bearing = session.bearing := by
  have hlog : (session.log (.submitted command)).bearing = session.bearing :=
    session.bearing_log rfl rfl
  rw [accept]
  split
  · exact hlog
  · split
    · exact hlog
    · exact hlog
  · exact hlog

theorem enterClose_bearing (reason : String) (graceful : Bool) :
    (session.enterClose reason graceful).2.2.bearing = session.bearing := by
  rw [enterClose]
  split
  · rfl
  · rfl

theorem enterCheck_bearing (limit : Span) :
    (session.enterCheck limit).2.2.bearing = session.bearing := by
  rw [enterCheck]
  split
  · rfl
  · split
    · rfl
    · rfl

theorem enterCall_bearing (call : Call E) :
    (session.enterCall call).2.2.bearing = session.bearing := by
  cases call with
  | send packet tag? =>
      rw [enterCall]
      cases session.registry.ofPacket packet with
      | error fault => rfl
      | ok descriptor => exact session.accept_bearing _
  | setPhase phase => exact session.accept_bearing _
  | setThreshold threshold => exact session.accept_bearing _
  | encrypt key =>
      rw [enterCall]
      split
      · exact session.accept_bearing _
      · rfl
  | close reason graceful => exact session.enterClose_bearing reason graceful
  | checkAlive limit => exact session.enterCheck_bearing limit

theorem runErrand_bearing (errand : Errand E N) :
    (session.runErrand errand).2.bearing = session.bearing := by
  cases errand with
  | abandon command => exact session.bearing_abandon command
  | announce reason => exact session.bearing_log rfl rfl
  | hook rest =>
      cases rest with
      | done => rfl
      | note note next => exact session.bearing_log rfl rfl
      | look next => rfl
      | call call next => exact session.enterCall_bearing call
  | cancel => rfl
  | close reason graceful => exact session.enterClose_bearing reason graceful

theorem runErrand_course (errand : Errand E N) :
    (session.runErrand errand).2.course = session.course :=
  congrArg Bearing.course (session.runErrand_bearing errand)

theorem runErrand_outgoing (errand : Errand E N) :
    (session.runErrand errand).2.outgoing = session.outgoing := by
  rcases session.runErrand_handled errand with ⟨command, rfl, -⟩ | ⟨-, hhandled⟩
  · exact congrArg Books.outgoing (session.books_abandon command)
  · exact hhandled.untouched.2.2

/-! ## Jobs -/

theorem bearing_encrypt (key : Bytes) : (session.encrypt key).2.bearing = session.bearing := by
  simp only [encrypt]
  split
  · rfl
  · split
    · rfl
    · split
      · rfl
      · rfl

theorem bearing_setThreshold (threshold : Int32) :
    (session.setThreshold threshold).2.bearing = session.bearing := by
  rw [setThreshold]
  split
  · split
    · rfl
    · rfl
  · simp only [compressFrom]
    split
    · rfl
    · split
      · rfl
      · rfl

theorem bearing_enableCompression : session.enableCompression.2.bearing = session.bearing := by
  rw [enableCompression]
  split
  · rfl
  · exact session.bearing_setThreshold _

theorem beginPhase_stay {phase : Phase} (h : session.codec.phase = phase) :
    session.beginPhase phase = ([], session) := by
  rw [beginPhase, if_pos h]

theorem beginPhase_change {phase : Phase} (h : session.codec.phase ≠ phase) :
    (session.beginPhase phase).1 = [.enter phase]
      ∧ (session.beginPhase phase).2.course = session.course.retune phase := by
  rw [beginPhase, if_neg h]
  exact ⟨rfl, rfl⟩

theorem beginApproach_stay {phase : Phase} (h : session.codec.phase = phase) :
    session.beginApproach phase = ([], session) := by
  rw [beginApproach, if_pos h]

theorem beginApproach_change {phase : Phase} (h : session.codec.phase ≠ phase) :
    (session.beginApproach phase).1 = [.enter phase]
      ∧ (session.beginApproach phase).2.course = session.course.retune phase := by
  rw [beginApproach, if_neg h]
  exact beginPhase_change _ h

theorem runCommand_steered (command : Command E) :
    Steered session.fate session.course (.execute command) (session.runCommand command).1
      (session.runCommand command).2.course := by
  cases command with
  | send packet tag? => exact .same rfl rfl
  | setPhase phase =>
      rw [runCommand]
      split
      · rename_i hmay
        by_cases hstay : session.codec.phase = phase
        · rw [session.beginPhase_stay hstay]
          exact .same rfl rfl
        · obtain ⟨hjobs, hcourse⟩ := session.beginPhase_change hstay
          rw [hjobs, hcourse]
          exact .command hmay hstay
      · exact .same rfl rfl
  | setThreshold threshold => exact .idle (session.bearing_setThreshold threshold) rfl rfl
  | encrypt key => exact .idle (session.bearing_encrypt key) rfl rfl

theorem execute_steered (command : Command E) :
    Steered session.fate session.course (.execute command) (session.runJob (.execute command)).1
      (session.runJob (.execute command)).2.course := by
  have h := (session.log (.executed command)).runCommand_steered command
  rw [fate_log _ rfl, course_log _ rfl rfl] at h
  exact h

theorem beginWrite_changes (packet : Packet E) (tag? : Option Tag)
    (next? : Option (Reply → Script E N)) :
    changesIn (session.beginWrite packet tag? next?) = [] := by
  rw [beginWrite]
  split
  · exact changesIn_resume next? _
  · rfl

theorem runApproach_steered (packet : Packet E) (tag? : Option Tag)
    (next? : Option (Reply → Script E N)) :
    Steered session.fate session.course (.approach packet tag? next?)
      (session.runApproach packet tag? next?).1
      (session.runApproach packet tag? next?).2.course := by
  rw [runApproach]
  split
  · exact .same rfl (changesIn_resume next? _)
  · rename_i descriptor hdescriptor
    by_cases hstay : session.codec.phase = descriptor.phase
    · rw [session.beginApproach_stay hstay]
      exact .same rfl rfl
    · obtain ⟨hjobs, hcourse⟩ := session.beginApproach_change hstay
      dsimp only
      rw [hjobs, hcourse]
      exact .approach hdescriptor hstay

theorem runEncode_changes (packet : Packet E) (tag? : Option Tag)
    (next? : Option (Reply → Script E N)) :
    changesIn (session.runEncode packet tag? next?).1 = [] := by
  rw [runEncode]
  split
  · exact changesIn_resume next? _
  · exact changesIn_resume next? _

theorem runEncode_bearing (packet : Packet E) (tag? : Option Tag)
    (next? : Option (Reply → Script E N)) :
    (session.runEncode packet tag? next?).2.bearing = session.bearing := by
  rw [runEncode]
  cases hencode : session.codec.encode packet with
  | error fault => rfl
  | ok result =>
      obtain ⟨sent, codec⟩ := result
      rw [bearing_log _ rfl rfl]
      simp only [bearing, course, ConnectionCodec.packets_encode hencode]

theorem runScriptStep_steered (rest : Script E N) :
    Steered session.fate session.course (.script rest) (session.runScriptStep rest).1
      (session.runScriptStep rest).2.course := by
  cases rest with
  | done result =>
      cases result with
      | ok _ => exact .same rfl rfl
      | error fault => exact .same rfl rfl
  | note note next => exact .idle (session.bearing_log rfl rfl) rfl rfl
  | look next => exact .same rfl rfl
  | act action next =>
      rw [runScriptStep]
      cases action with
      | send packet tag? => exact .same rfl rfl
      | setPhase phase =>
          rw [runAction]
          split
          · rename_i hmay
            by_cases hstay : session.codec.phase = phase
            · rw [session.beginPhase_stay hstay]
              exact .same rfl rfl
            · obtain ⟨hjobs, hcourse⟩ := session.beginPhase_change hstay
              dsimp only
              rw [hjobs, hcourse]
              exact .action hmay hstay
          · rename_i hstay
            simp only [act, setPhase, if_neg hstay]
            exact .same rfl rfl
      | setThreshold threshold => exact .idle (session.bearing_setThreshold threshold) rfl rfl
      | enableCompression => exact .idle session.bearing_enableCompression rfl rfl
      | encrypt key => exact .idle (session.bearing_encrypt key) rfl rfl
      | call call =>
          refine .idle (session.enterCall_bearing call) rfl ?_
          rw [runAction, changesIn_append, changesIn_errands]
          rfl

theorem runHandle_steered (packet : Packet E) :
    Steered session.fate session.course (.handle packet) (session.runHandle packet).1
      (session.runHandle packet).2.course := by
  have hdispatched : Steered session.fate session.course (.handle packet)
      [.script (session.listener.onPacket packet)] (session.log (.packet packet)).course := by
    have hcourse : (session.log (.packet packet)).course = session.course.receive packet := by
      simp [course, Course.receive, log, Event.phase?, Event.packet?]
    rw [hcourse]
    exact .receive packet
  unfold runHandle
  dsimp only
  split
  · exact hdispatched
  · split
    · exact .same rfl rfl
    · exact .same rfl rfl
    · exact hdispatched

theorem runTick_steered :
    Steered session.fate session.course .tick session.runTick.1 session.runTick.2.course := by
  rw [runTick]
  split
  · exact .same rfl rfl
  · refine .idle (session.enterCheck_bearing session.options.keepaliveTimeout) rfl ?_
    dsimp only
    rw [changesIn_append, changesIn_errands]
    split
    · rfl
    · rfl

theorem runJob_steered (job : Job E N) :
    Steered session.fate session.course job (session.runJob job).1
      (session.runJob job).2.course := by
  cases job with
  | errand task => exact .idle (session.runErrand_bearing task) rfl (changesIn_errands _)
  | execute command => exact session.execute_steered command
  | write packet tag? next? => exact .same rfl (session.beginWrite_changes packet tag? next?)
  | approach packet tag? next? => exact session.runApproach_steered packet tag? next?
  | encode packet tag? next? =>
      exact .idle (session.runEncode_bearing packet tag? next?) rfl
        (session.runEncode_changes packet tag? next?)
  | enter phase => exact .enter phase
  | tell phase =>
      have hcourse : (session.log (.phase phase)).course = session.course.tell phase := by
        simp [course, Course.tell, log, Event.phase?, Event.packet?]
      rw [runJob, hcourse]
      exact .tell phase
  | complete tag? result => exact .idle (session.bearing_complete tag? result) rfl rfl
  | script rest => exact session.runScriptStep_steered rest
  | receive packet =>
      refine .same rfl ?_
      rw [runJob]
      split
      · rfl
      · rfl
  | handle packet => exact session.runHandle_steered packet
  | fail fault =>
      refine .idle ?_ rfl rfl
      simp only [runJob, countFault]
      split
      · rfl
      · rfl
  | failIfOpen fault =>
      refine .same rfl ?_
      rw [runJob]
      split
      · rfl
      · rfl
  | tick => exact session.runTick_steered
  | probe => exact .same rfl rfl

theorem beginPhase_jobs (phase : Phase) :
    (session.beginPhase phase).1 = (if session.codec.phase = phase then [] else [.enter phase]) := by
  rw [beginPhase]
  split
  · rfl
  · rfl

theorem beginPhase_phase (phase : Phase) :
    (session.beginPhase phase).2.codec.phase = phase := by
  rw [beginPhase]
  split
  · assumption
  · rfl

theorem runJob_granted {job : Job E N} {phase : Phase} (hasked : job.asked? = some phase)
    (hmay : session.codec.phase.canMoveTo phase) :
    (session.runJob job).2.codec.phase = phase
      ∧ (session.runJob job).1 = (if session.codec.phase = phase then [] else [.enter phase])
          ++ job.answer (.ok ()) := by
  unfold Job.asked? at hasked
  split at hasked
  · cases hasked
    have hrun : session.runJob (.execute (.setPhase phase))
        = (session.log (.executed (.setPhase phase))).beginPhase phase := if_pos hmay
    rw [hrun]
    exact ⟨beginPhase_phase _ phase, (beginPhase_jobs _ phase).trans (List.append_nil _).symm⟩
  · cases hasked
    rw [runJob, runScriptStep, runAction, if_pos hmay, ← session.beginPhase_jobs phase]
    exact ⟨session.beginPhase_phase phase, rfl⟩
  · cases hasked

theorem runJob_refused {job : Job E N} {phase : Phase} (hasked : job.asked? = some phase)
    (hmay : ¬ session.codec.phase.canMoveTo phase) :
    ∃ events, session.runJob job
        = (job.answer (.error (.setup
            s!"cannot move from {session.codec.phase.name} to {phase.name}")),
          { session with events := session.events ++ events })
      ∧ events.Sublist [.executed (.setPhase phase)] := by
  unfold Job.asked? at hasked
  split at hasked
  · cases hasked
    exact ⟨[.executed (.setPhase phase)], if_neg hmay, .refl _⟩
  · cases hasked
    refine ⟨[], ?_, List.nil_sublist _⟩
    rw [runJob, runScriptStep, runAction, if_neg hmay, act, setPhase, if_neg hmay,
      List.append_nil]
    rfl
  · cases hasked

/-- A packet is only left to be encoded in its phase. -/
theorem runApproach_aimed (packet : Packet E) (tag? : Option Tag)
    (next? : Option (Reply → Script E N)) :
    (session.runApproach packet tag? next?).2.course.IsAimed
      (session.runApproach packet tag? next?).1 := by
  rw [runApproach]
  split
  · exact .calm (calm_idle (idle_resume next? _))
  · rename_i descriptor hdescriptor
    have hphase : (session.beginApproach descriptor.phase).2.course.packets
        = { session.codec.packets with phase := descriptor.phase } := by
      by_cases hstay : session.codec.phase = descriptor.phase
      · rw [session.beginApproach_stay hstay, ← hstay]
        rfl
      · rw [(session.beginApproach_change hstay).2]
        rfl
    obtain ⟨hidle, -⟩ := session.beginApproach_quiet descriptor.phase
    intro other otherTag? otherNext? hmem
    rcases List.mem_append.mp hmem with hidly | hlast
    · exact (calm_idle hidle _ hidly True.intro).elim
    · cases List.mem_singleton.mp hlast
      dsimp only
      rw [hphase]
      exact ⟨descriptor, hdescriptor, rfl⟩

theorem runJob_aimed (job : Job E N) :
    (session.runJob job).2.course.IsAimed (session.runJob job).1 := by
  cases job with
  | write packet tag? next? =>
      rw [runJob, beginWrite]
      split
      · exact .calm (List.forall_mem_cons.mpr ⟨id, calm_idle (idle_resume next? _)⟩)
      · intro _ _ _ hmem
        cases List.mem_singleton.mp hmem
  | approach packet tag? next? => exact session.runApproach_aimed packet tag? next?
  | encode packet tag? next? =>
      rw [runJob, runEncode]
      split
      · exact .calm (calm_idle (idle_resume next? _))
      · exact .calm (List.forall_mem_cons.mpr ⟨id, List.forall_mem_cons.mpr
          ⟨id, calm_idle (idle_resume next? _)⟩⟩)
  | _ => exact .calm ((session.runJob_worked .new _).calm_unless False.elim id)

theorem runStep_packets {job : Job E N} (h : job.IsStep) :
    (session.runJob job).2.course.packets = session.course.packets := by
  cases job with
  | errand task => exact congrArg Course.packets (session.runErrand_course task)
  | enter phase => rfl
  | tell phase => rfl
  | _ => exact h.elim

theorem proceed_bearing (duplex : Duplex) (afterwards : Afterwards) :
    (session.proceed duplex afterwards).1.bearing = session.bearing := by
  cases afterwards with
  | firstWait =>
      rw [proceed, firstWait]
      split
      · rfl
      · rfl
  | wait => rfl
  | shutdown => rfl

theorem beginFlush_bearing (duplex : Duplex) (afterwards : Afterwards) :
    (session.beginFlush duplex afterwards).1.bearing = session.bearing := by
  rw [beginFlush]
  split
  · exact proceed_bearing _ duplex afterwards
  · rfl

end Session

/-! ## Frames -/

theorem Worked.unframed {books next : Books E} {record record' : Record} {job : Job E N}
    {jobs : List (Job E N)} (h : Worked books record job jobs next record')
    (hjob : ∀ packet tag? next?, job ≠ .encode packet tag? next?) :
    record'.frames = record.frames ∧ next.outgoing = books.outgoing := by
  cases h with
  | call hidle hjobs hhandled =>
      obtain ⟨-, -, houtgoing⟩ := hhandled.untouched
      exact ⟨rfl, houtgoing⟩
  | encoded packet tag? next? wire => exact (hjob packet tag? next? rfl).elim
  | _ => exact ⟨rfl, rfl⟩

/-- Unless it is the turn of a packet to be encoded, no frame comes in, and bytes only go out. -/
theorem Ledger.Entry.unframed {ledger next : Ledger E N}
    (h : ledger.Entry next)
    (hjobs : ∀ packet tag? next? rest, ledger.jobs ≠ .encode packet tag? next? :: rest) :
    next.record.frames = ledger.record.frames
      ∧ next.books.outgoing <:+ ledger.books.outgoing := by
  cases h with
  | call hhandled hdropping =>
      obtain ⟨-, -, houtgoing⟩ := hhandled.untouched
      exact ⟨rfl, houtgoing ▸ List.suffix_rfl⟩
  | job hfull hworked =>
      obtain ⟨hframes, houtgoing⟩ := hworked.unframed fun packet tag? next? hjob => by
        rw [hjob] at hfull
        exact hjobs packet tag? next? _ hfull
      exact ⟨hframes, houtgoing ▸ List.suffix_rfl⟩
  | execute hidle hwaiting hchannel hworked =>
      obtain ⟨hframes, houtgoing⟩ := hworked.unframed nofun
      exact ⟨hframes, houtgoing ▸ List.suffix_rfl⟩
  | hand count => exact ⟨rfl, List.drop_suffix _ _⟩
  | _ => exact ⟨rfl, List.suffix_rfl⟩

end PhaseWire
