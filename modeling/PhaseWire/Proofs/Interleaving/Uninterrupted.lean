import PhaseWire.Proofs.Interleaving.World

/-
# Nothing in between

When nobody else moves, the pieces of a turn add up to the turn: the jobs
of each kind settle to what the session's own function gives
(`runScript_settles`, `receive_settles` and so on), and every turn that a
session can take in one go is a run of its world (`turn_reaches`).  So
what holds of all schedules also holds of sessions that are never
interrupted.
-/

namespace PhaseWire

variable {E N : Type} [CustomPackets E]

namespace Session

variable (session : Session E N)

/-! ## Jobs -/

theorem errands_settle {errands : List (Errand E N)} {session last : Session E N}
    (h : Settles runErrand errands session last) :
    Settles runJob (errands.map .errand) session last :=
  h.map fun _ _ => rfl

theorem shut_settles (reason : String) :
    Settles runJob [.errand (.close reason false)] session (session.shut reason) :=
  errands_settle (settles_shut session reason)

theorem complete_settles (tag? : Option Tag) (result : Except Fault Unit) :
    Settles runJob [.complete tag? result] session (session.complete tag? result) :=
  .cons (.nil _)

theorem tell_settles (tags : List Tag) (result : Except Fault Unit) : ∀ session : Session E N,
    Settles runJob (World.tell tags result) session (session.completeAll tags result) := by
  induction tags with
  | nil =>
      intro session
      exact .nil session
  | cons tag tags ih =>
      intro session
      exact .cons (ih (session.complete (some tag) result))

theorem switchPhase_settles (phase : Phase) :
    Settles runJob (session.beginPhase phase).1 (session.beginPhase phase).2
      (session.switchPhase phase) := by
  rw [beginPhase, switchPhase]
  split
  · exact .nil session
  · exact .cons (.cons (errands_settle (settles_runHook _ (session.listener.onPhase phase))))

theorem approach_settles (phase : Phase) :
    Settles runJob (session.beginApproach phase).1 (session.beginApproach phase).2
      (session.approach phase) := by
  rw [beginApproach, approach]
  split
  · exact .nil session
  · exact { session with reading := false }.switchPhase_settles phase

theorem write_settles (packet : Packet E) (tag? : Option Tag)
    (next? : Option (Reply → Script E N)) {last : Session E N}
    (h : Settles runJob (resume next? (session.write packet tag?).1)
      (session.write packet tag?).2 last) :
    Settles runJob [.write packet tag? next?] session last := by
  refine .cons ?_
  rw [List.append_nil, runJob, beginWrite]
  rw [write] at h
  split
  · rename_i hclosed
    rw [if_pos hclosed] at h
    exact (session.complete_settles tag? (.error .closed)).append h
  · rename_i hopen
    rw [if_neg hopen] at h
    refine .cons ?_
    rw [List.append_nil, runJob, runApproach]
    cases hpacket : session.registry.ofPacket packet with
    | error fault =>
        simp only [hpacket] at h
        exact h
    | ok descriptor =>
        simp only [hpacket] at h
        refine (session.approach_settles descriptor.phase).append (.cons ?_)
        rw [List.append_nil, runJob, runEncode]
        rw [encode] at h
        cases hencode : (session.approach descriptor.phase).codec.encode packet with
        | error fault =>
            simp only [hencode] at h
            have htold := (session.approach descriptor.phase).complete_settles tag? (.error .closed)
            exact (htold.append (shut_settles _ fault.message)).append h
        | ok result =>
            obtain ⟨sent, codec⟩ := result
            simp only [hencode] at h
            exact h

theorem execute_settles (command : Command E) :
    Settles runJob [.execute command] session (session.execute command) := by
  refine .cons ?_
  rw [List.append_nil, runJob]
  cases command with
  | send packet tag? => exact write_settles _ packet tag? none (.nil _)
  | setPhase phase =>
      simp only [runCommand, execute, setPhase]
      split
      · exact switchPhase_settles _ phase
      · exact .nil _
  | setThreshold threshold => exact .nil _
  | encrypt key => exact .nil _

theorem executeAll_settles (commands : List (Command E)) : ∀ session : Session E N,
    Settles runJob (commands.map .execute) session (commands.foldl execute session) := by
  induction commands with
  | nil =>
      intro session
      exact .nil session
  | cons command commands ih =>
      intro session
      exact (session.execute_settles command).append (ih (session.execute command))

theorem act_settles (action : Action E) (next : Reply → Script E N) {last : Session E N}
    (h : Settles runJob [.script (next (session.act action).1)] (session.act action).2 last) :
    Settles runJob [.script (.act action next)] session last := by
  refine .cons ?_
  rw [List.append_nil, runJob, runScriptStep]
  cases action with
  | send packet tag? => exact session.write_settles packet tag? (some next) h
  | setPhase phase =>
      rw [runAction]
      split
      · rename_i hmove
        simp only [act, setPhase, if_pos hmove] at h
        exact (session.switchPhase_settles phase).append h
      · exact h
  | setThreshold threshold => exact h
  | enableCompression => exact h
  | encrypt key => exact h
  | call call =>
      obtain ⟨hreply, hcall⟩ := session.settles_call call
      simp only [act, hreply] at h
      exact (errands_settle hcall).append h

theorem runScript_settles (script : Script E N) : ∀ session : Session E N,
    Settles runJob [.script script] session
      (match runScript script session with
        | (.ok (), session) => session
        | (.error fault, session) => session.shut fault.message) := by
  induction script with
  | done result =>
      intro session
      cases result with
      | ok _ => exact .cons (.nil session)
      | error fault => exact .cons (session.shut_settles fault.message)
  | note note next ih =>
      intro session
      exact .cons (ih (session.log (.note note)))
  | look next ih =>
      intro session
      exact .cons (ih session.view session)
  | act action next ih =>
      intro session
      exact session.act_settles action next (ih _ _)

theorem dispatch_settles (packet : Packet E) :
    Settles runJob [.script (session.listener.onPacket packet)] (session.log (.packet packet))
      (session.dispatch packet) :=
  runScript_settles (session.listener.onPacket packet) (session.log (.packet packet))

theorem receive_other {packet : Packet E} (hopen : ¬ session.isClosed)
    (hserver : ∀ id, session.options.side = .server →
      packet = .core (.serverboundKeepAlive id) → False)
    (hclient : ∀ id, session.options.side = .client →
      packet = .core (.clientboundKeepAlive id) → False) :
    session.receive packet = session.dispatch packet := by
  unfold receive
  rw [if_neg hopen]
  split
  · rfl
  · split
    · rename_i hside
      exact (hserver _ hside rfl).elim
    · rename_i hside
      exact (hclient _ hside rfl).elim
    · rfl

theorem receive_settles (packet : Packet E) :
    Settles runJob [.receive packet] session (session.receive packet) := by
  have hdispatch := session.dispatch_settles packet
  refine .cons ?_
  rw [List.append_nil, runJob]
  split
  · rename_i hclosed
    unfold receive
    rw [if_pos hclosed]
    exact .nil session
  · rename_i hopen
    refine .cons ?_
    rw [List.append_nil, runJob]
    unfold runHandle
    dsimp only
    split
    · rename_i hquiet
      unfold receive
      rw [if_neg hopen, if_pos hquiet]
      exact hdispatch
    · rename_i hkeeps
      split
      · rename_i hside
        unfold receive
        rw [if_neg hopen, if_neg hkeeps]
        simp only [hside]
        exact .nil _
      · rename_i hside
        unfold receive
        rw [if_neg hopen, if_neg hkeeps]
        simp only [hside]
        exact write_settles _ _ _ none (.nil _)
      · rename_i hserver hclient
        rw [session.receive_other hopen hserver hclient]
        exact hdispatch

theorem fail_settles (fault : Fault) :
    Settles runJob [.fail fault] session (session.fail fault) :=
  .cons (shut_settles _ fault.message)

theorem failIfOpen_settles (fault : Fault) :
    Settles runJob [.failIfOpen fault] session
      (if session.isClosed then session else session.fail fault) := by
  refine .cons ?_
  rw [List.append_nil, runJob]
  split
  · exact .nil session
  · exact session.fail_settles fault

theorem probe_settles : Settles runJob [.probe] session session.probe :=
  .cons (write_settles _ _ _ none (.nil _))

theorem onTick_settles : Settles runJob [.tick] session session.onTick := by
  refine .cons ?_
  rw [List.append_nil, runJob, runTick, onTick]
  split
  · exact .nil session
  · simp only [checkAlive, checkAliveBy, enterCheck]
    split
    · exact .nil session
    · split
      · exact shut_settles _ Reason.timedOut
      · dsimp only
        by_cases hside : session.options.side = .server
        · simp only [hside, decide_true, Bool.and_self, if_true]
          exact session.probe_settles
        · simp only [hside, decide_false, Bool.and_false, Bool.false_eq_true, if_false]
          exact .nil session

theorem bury_settles (flush : Flush) (fault : Fault) :
    Settles runJob (World.bury flush fault) session (session.flushFailed flush fault) :=
  (tell_settles flush.tags (.error .closed) session).append (failIfOpen_settles _ fault)

end Session

namespace World

/-! ## Turns -/

/-- The session's own moves lead from one world to another, whatever is taken down on the way. -/
def Reaches (world next : World E N) : Prop :=
  ∀ before : Record, ∃ (picks : List Pick) (after : Record),
    { world with record := before }.run (picks.map .drive) = { next with record := after }

namespace Reaches

variable {world next last : World E N}

theorem refl (world : World E N) : Reaches world world :=
  fun before => ⟨[], before, rfl⟩

theorem trans (h : Reaches world next) (hnext : Reaches next last) : Reaches world last := by
  intro before
  obtain ⟨picks, between, hpicks⟩ := h before
  obtain ⟨more, after, hmore⟩ := hnext between
  refine ⟨picks ++ more, after, ?_⟩
  rw [List.map_append, run_append, hpicks, hmore]

theorem pick (pick : Pick)
    (h : ∀ before : Record, ∃ after : Record, { world with record := before }.drive pick
      = { next with record := after }) : Reaches world next := by
  intro before
  obtain ⟨after, hdrive⟩ := h before
  exact ⟨[pick], after, hdrive⟩

end Reaches

/-- Jobs that nobody interrupts. -/
theorem settles_reaches {jobs : List (Job E N)} {session last : Session E N}
    (h : Settles Session.runJob jobs session last) : ∀ world : World E N,
    Reaches { world with session, jobs } { world with session := last, jobs := [] } := by
  induction h with
  | nil session =>
      intro world
      exact .refl _
  | @cons job rest session last h ih =>
      intro world
      have hjob : Reaches { world with session, jobs := job :: rest }
          { world with
            session := (session.runJob job).2
            jobs := (session.runJob job).1 ++ rest } :=
        .pick .input fun before => ⟨before.note session job, rfl⟩
      exact hjob.trans (ih world)

variable {world : World E N} {jobs : List (Job E N)} {last : Session E N}

theorem flush_reaches (h : Settles Session.runJob jobs world.session last)
    (afterwards : Afterwards) :
    Reaches (world.assign jobs (.flush afterwards))
      ({ world with jobs := [], sequel? := none }.become
        (last.beginFlush world.duplex afterwards)) :=
  (settles_reaches h (world.assign jobs (.flush afterwards))).trans
    (.pick .input fun before => ⟨before, rfl⟩)

theorem goOn_reaches (h : Settles Session.runJob jobs world.session last)
    (afterwards : Afterwards) :
    Reaches (world.assign jobs (.goOn afterwards))
      ({ world with jobs := [], sequel? := none }.become (last.endFlush world.duplex afterwards)) :=
  (settles_reaches h (world.assign jobs (.goOn afterwards))).trans
    (.pick .input fun before => ⟨before, rfl⟩)

theorem abandon_channel (session : Session E N) (command : Command E)
    (channel : List (Command E)) :
    { session with channel }.abandon command
      = { session.abandon command with channel := channel } := by
  rw [Session.abandon, Session.abandon]
  cases command.tag? with
  | none => rfl
  | some tag => rfl

/-- A session whose turn has not begun. -/
def resting (session : Session E N) (duplex : Duplex) (threads : List (List (Errand E N)))
    (record : Record) : World E N :=
  ⟨session, duplex, [], none, threads, record⟩

theorem dropLeft_reaches (duplex : Duplex) (threads : List (List (Errand E N))) (record : Record)
    (left : List (Command E)) : ∀ session : Session E N, session.channel = left →
    Reaches ⟨session, duplex, [], some .dropLeft, threads, record⟩
      ((resting session duplex threads record).become
        ((left.foldl Session.abandon { session with channel := [] }).beginFlush duplex
          .shutdown)) := by
  -- Each command takes a move, and the last move finds the channel empty.
  induction left with
  | nil =>
      intro session hchannel
      refine .pick .stop fun before => ⟨before, ?_⟩
      have hsession : { session with channel := [] } = session := by rw [← hchannel]
      simp only [drive, conclude, hchannel]
      rw [List.foldl_nil, hsession]
      rfl
  | cons command left ih =>
      intro session hchannel
      have hdrop : Reaches ⟨session, duplex, [], some .dropLeft, threads, record⟩
          ⟨{ session with channel := left }.abandon command, duplex, [], some .dropLeft, threads,
            record⟩ := by
        refine .pick .stop fun before => ⟨before, ?_⟩
        simp only [drive, conclude, hchannel]
      have hleft := ih ({ session with channel := left }.abandon command)
        (by rw [abandon_channel])
      have hforget : { { session with channel := left }.abandon command with channel := [] }
          = { session with channel := [] }.abandon command := by
        rw [abandon_channel, abandon_channel session command []]
      rw [hforget] at hleft
      exact hdrop.trans hleft

section

variable {session session' last : Session E N} {duplex duplex' : Duplex}
  {threads : List (List (Errand E N))} {record : Record} {next : Session E N × Duplex}
  {jobs : List (Job E N)} {afterwards : Afterwards}

theorem flushing_reaches (pick : Pick)
    (hturn : ∀ before : Record, (resting session duplex threads before).turn pick
      = (resting session' duplex' threads before).assign jobs (.flush afterwards))
    (h : Settles Session.runJob jobs session' last)
    (hnext : last.beginFlush duplex' afterwards = next) :
    Reaches (resting session duplex threads record) (resting next.1 next.2 threads record) := by
  have hbegin : Reaches (resting session duplex threads record)
      ((resting session' duplex' threads record).assign jobs (.flush afterwards)) :=
    .pick pick fun before => ⟨before, hturn before⟩
  subst hnext
  exact hbegin.trans (flush_reaches h afterwards)

theorem settling_reaches (pick : Pick)
    (hturn : ∀ before : Record, ∃ after : Record, (resting session duplex threads before).turn pick
      = (resting session' duplex' threads after).assign jobs (.goOn afterwards))
    (h : Settles Session.runJob jobs session' last)
    (hnext : last.endFlush duplex' afterwards = next) :
    Reaches (resting session duplex threads record) (resting next.1 next.2 threads record) := by
  have hbegin : Reaches (resting session duplex threads record)
      ((resting session' duplex' threads record).assign jobs (.goOn afterwards)) :=
    .pick pick fun before => hturn before
  subst hnext
  exact hbegin.trans (goOn_reaches h afterwards)

theorem turning_reaches (pick : Pick)
    (hturn : ∀ before : Record, ∃ after : Record, (resting session duplex threads before).turn pick
      = resting next.1 next.2 threads after) :
    Reaches (resting session duplex threads record) (resting next.1 next.2 threads record) :=
  .pick pick fun before => hturn before

theorem start_reaches (hactivity : session.activity = .starting)
    (h : session.startStep duplex = some next) :
    Reaches (resting session duplex threads record) (resting next.1 next.2 threads record) := by
  simp only [Session.startStep] at h
  split at h
  · rename_i hpreparing
    refine flushing_reaches .input (fun before => ?_) (Session.executeAll_settles _ _)
      (Option.some.inj h)
    simp only [turn, resting, hactivity, startTurn, hpreparing, if_true]
  · rename_i hlate
    cases h
    refine turning_reaches .input fun before => ⟨before, ?_⟩
    simp only [turn, resting, hactivity, startTurn, hlate, if_false]
    rfl

theorem frame_reaches (pick : Pick) {incoming : Bytes}
    (hturn : ∀ before : Record, (resting session duplex threads before).turn pick
      = (resting session' duplex' threads before).takeFrame incoming)
    (h : session'.frameStep duplex' incoming = some next) :
    Reaches (resting session duplex threads record) (resting next.1 next.2 threads record) := by
  rw [Session.frameStep] at h
  cases hdecode : session'.codec.decode incoming with
  | mk result codec =>
      simp only [hdecode] at h
      cases result with
      | error fault =>
          refine flushing_reaches pick (fun before => ?_) (Session.fail_settles _ fault)
            (Option.some.inj h)
          rw [hturn]
          simp only [takeFrame, resting, hdecode]
      | ok packet? =>
          cases packet? with
          | some packet =>
              refine flushing_reaches pick (fun before => ?_) (Session.receive_settles _ packet)
                (Option.some.inj h)
              rw [hturn]
              simp only [takeFrame, resting, hdecode]
          | none =>
              dsimp only at h
              split at h
              · rename_i hended
                refine flushing_reaches pick (fun before => ?_)
                  (Session.shut_settles _ Reason.endOfStream) (Option.some.inj h)
                rw [hturn]
                simp only [takeFrame, resting, hdecode, hended, if_true]
              · rename_i hgoing
                cases h
                refine turning_reaches pick fun before => ⟨before, ?_⟩
                rw [hturn]
                simp only [takeFrame, resting, hdecode, hgoing]
                rfl

theorem input_reaches (pick : Pick)
    (hturn : ∀ before : Record, (resting session duplex threads before).turn pick
      = (resting session duplex threads before).takeInput)
    (h : session.readStep duplex = some next) :
    Reaches (resting session duplex threads record) (resting next.1 next.2 threads record) := by
  simp only [Session.readStep] at h
  cases hread : duplex.read session.readLimit with
  | mk intake duplex' =>
      simp only [hread] at h
      cases intake with
      | bytes taken =>
          refine frame_reaches pick (fun before => ?_) h
          rw [hturn]
          simp only [takeInput, resting, hread]
      | nothing => cases h
      | ended =>
          refine frame_reaches pick (fun before => ?_) h
          rw [hturn]
          simp only [takeInput, resting, hread]
      | failed fault =>
          refine flushing_reaches pick (fun before => ?_) (Session.fail_settles _ fault)
            (Option.some.inj h)
          rw [hturn]
          simp only [takeInput, resting, hread]

theorem wait_reaches (hactivity : session.activity = .waiting)
    (h : session.waitStep duplex = some next) :
    Reaches (resting session duplex threads record) (resting next.1 next.2 threads record) := by
  rw [Session.waitStep] at h
  cases hchannel : session.channel with
  | cons command channel =>
      simp only [hchannel] at h
      have hexecute := { session with channel }.execute_settles command
      cases hexecute with
      | cons hexecute =>
          rw [List.append_nil] at hexecute
          refine flushing_reaches .command (fun before => ?_) hexecute (Option.some.inj h)
          simp only [turn, resting, hactivity, waitTurn, hchannel]
  | nil =>
      simp only [hchannel] at h
      split at h
      · rename_i htick
        cases hafter : session.tickAfter? with
        | some nextTick =>
            simp only [hafter] at h
            refine flushing_reaches .tick (fun before => ?_) (Session.onTick_settles _)
              (Option.some.inj h)
            simp only [turn, resting, hactivity, waitTurn, hafter, hchannel]
            exact if_pos htick
        | none =>
            simp only [hafter] at h
            cases h
            refine turning_reaches .tick fun before => ⟨before, ?_⟩
            simp only [turn, resting, hactivity, waitTurn, hafter]
            exact if_pos htick
      · split at h
        · cases h
        · rename_i hreading
          split at h
          · rename_i hunseen
            refine frame_reaches .input (fun before => ?_) h
            simp only [turn, resting, hactivity, waitTurn, hreading, hunseen, if_true]
            rfl
          · rename_i hseen
            refine input_reaches .input (fun before => ?_) h
            simp only [turn, resting, hactivity, waitTurn, hreading, hseen]
            rfl

theorem end_reaches (hactivity : session.activity = .waiting) (hclosed : session.isClosed)
    (h : session.endStep duplex = some next) :
    Reaches (resting session duplex threads record) (resting next.1 next.2 threads record) := by
  cases h
  have hbegin : Reaches (resting session duplex threads record)
      ((resting session duplex threads record).assign
        [.errand (.close Reason.connectionClosed false)] .dropLeft) := by
    refine .pick .stop fun before => ⟨before, ?_⟩
    simp only [drive, turn, resting, hactivity, waitTurn, hclosed, if_true]
    rfl
  have hshut := settles_reaches (session.shut_settles Reason.connectionClosed)
    ((resting session duplex threads record).assign
        [.errand (.close Reason.connectionClosed false)] .dropLeft)
  exact (hbegin.trans hshut).trans (dropLeft_reaches duplex threads record _ _ rfl)

/-- What is pushed is written in one turn, if there is anything to write. -/
theorem push_reaches {sent : Except Fault Bool} {count : Nat}
    (hturn : ∀ before count duplex', session.outgoing.isEmpty = false →
      duplex.write session.outgoing = .ok (count, duplex') →
      (resting session duplex threads before).turn .input
        = (resting session duplex threads before).hand count duplex')
    (hpush : duplex.push session.outgoing = (sent, count, duplex')) :
    (∃ fault, session.outgoing.isEmpty = false ∧ duplex.write session.outgoing = .error fault
        ∧ sent = .error fault ∧ { session with outgoing := session.outgoing.drop count } = session
        ∧ duplex' = duplex)
      ∨ Reaches (resting session duplex threads record)
          (resting { session with outgoing := session.outgoing.drop count } duplex' threads record)
        ∧ (sent = .ok false
          ∨ (session.outgoing.drop count).isEmpty = true ∧ sent = duplex'.flush) := by
  rcases Duplex.push_cases hpush with ⟨fault, hleft, hwrite, hsent, rfl, hsame⟩ | ⟨hwritten, hsent⟩
  · exact .inl ⟨fault, hleft, hwrite, hsent, rfl, hsame⟩
  · refine .inr ⟨?_, hsent⟩
    rcases hwritten with ⟨-, rfl, rfl⟩ | ⟨hleft, hwrite⟩
    · exact .refl _
    · exact .pick .input fun before =>
        ⟨before.hand (session.outgoing.take count), hturn before count duplex' hleft hwrite⟩

theorem late_reaches {flush : Flush} (hactivity : session.activity = .flushing flush)
    (hlate : flush.deadline ≤ session.surroundings.timer)
    (h : (session.flushLate flush).endFlush duplex flush.afterwards = next) :
    Reaches (resting session duplex threads record) (resting next.1 next.2 threads record) := by
  cases hclosing : flush.closing with
  | true =>
      simp only [Session.flushLate, hclosing, if_true] at h
      refine settling_reaches .tick (fun before => ⟨before, ?_⟩)
        (Session.bury_settles _ flush .timeout) h
      simp only [turn, resting, hactivity, flushTurn, settleLate, hlate, hclosing, if_true]
      rfl
  | false =>
      simp only [Session.flushLate, hclosing] at h
      refine settling_reaches .tick (fun before => ⟨before, ?_⟩)
        ((Session.shut_settles _ Reason.timedOut).append
          (Session.bury_settles _ flush .timeout)) h
      simp only [turn, resting, hactivity, flushTurn, settleLate, hlate, hclosing, if_true]
      rfl

theorem flushStep_reaches {flush : Flush} (hactivity : session.activity = .flushing flush)
    (h : session.flushStep duplex flush = some next) :
    Reaches (resting session duplex threads record) (resting next.1 next.2 threads record) := by
  rw [Session.flushStep] at h
  rcases hpush : duplex.push session.outgoing with ⟨sent, count, duplex'⟩
  have hhand : ∀ (before : Record) (count : Nat) (duplex' : Duplex),
      session.outgoing.isEmpty = false →
      duplex.write session.outgoing = .ok (count, duplex') →
      (resting session duplex threads before).turn .input
        = (resting session duplex threads before).hand count duplex' := by
    intro before count duplex' hleft hwrite
    simp only [turn, resting, hactivity, flushTurn, flushWrite, hleft, hwrite]
    rfl
  simp only [hpush] at h
  rcases push_reaches hhand hpush with ⟨fault, hleft, hwrite, rfl, hsame, rfl⟩ | ⟨hreaches, hsent⟩
  · simp only [hsame] at h
    refine settling_reaches .input (fun before => ⟨before, ?_⟩)
      (Session.bury_settles _ flush fault) (Option.some.inj h)
    simp only [turn, resting, hactivity, flushTurn, flushWrite, hleft, hwrite]
    rfl
  -- Two moves stand for one step: the bytes go first, then comes what settles the flush.
  · refine hreaches.trans ?_
    cases sent with
    | error fault =>
        obtain ⟨hempty, hflush⟩ := hsent.resolve_left (by simp)
        refine settling_reaches .input (fun before => ⟨before, ?_⟩)
          (Session.bury_settles _ flush fault) (Option.some.inj h)
        simp only [turn, resting, hactivity, flushTurn, flushWrite, hempty, ← hflush, if_true]
        rfl
    | ok passed =>
        cases passed with
        | true =>
            obtain ⟨hempty, hflush⟩ := hsent.resolve_left (by simp)
            refine settling_reaches .input (fun before => ⟨before.flush, ?_⟩)
              (Session.tell_settles flush.tags (.ok ()) _) (Option.some.inj h)
            simp only [turn, resting, hactivity, flushTurn, flushWrite, hempty, ← hflush, if_true]
            rfl
        | false =>
            dsimp only at h
            split at h
            · rename_i hcut
              refine settling_reaches .stop (fun before => ⟨before, ?_⟩)
                (Session.bury_settles _ flush .closed) (Option.some.inj h)
              simp only [turn, resting, hactivity, flushTurn, hcut, if_true]
              rfl
            · split at h
              · rename_i hlate
                exact late_reaches hactivity hlate (Option.some.inj h)
              · split at h
                · cases h
                · cases h
                  exact .refl _

theorem finish_reaches (pick : Pick)
    (hturn : ∀ before : Record, (resting session duplex threads before).turn pick
      = (resting session duplex threads before).finish)
    (h : session.finish duplex = some next) :
    Reaches (resting session duplex threads record) (resting next.1 next.2 threads record) := by
  cases h
  exact turning_reaches pick fun before => ⟨before, hturn before⟩

theorem shutdown_reaches {deadline : Instant}
    (hactivity : session.activity = .shuttingDown deadline)
    (h : session.shutdownStep duplex deadline = some next) :
    Reaches (resting session duplex threads record) (resting next.1 next.2 threads record) := by
  rw [Session.shutdownStep] at h
  rcases hpush : duplex.push session.outgoing with ⟨sent, count, duplex'⟩
  have hhand : ∀ (before : Record) (count : Nat) (duplex' : Duplex),
      session.outgoing.isEmpty = false →
      duplex.write session.outgoing = .ok (count, duplex') →
      (resting session duplex threads before).turn .input
        = (resting session duplex threads before).hand count duplex' := by
    intro before count duplex' hleft hwrite
    simp only [turn, resting, hactivity, shutdownTurn, hleft, hwrite]
    rfl
  simp only [hpush] at h
  rcases push_reaches hhand hpush with ⟨fault, hleft, hwrite, rfl, hsame, rfl⟩ | ⟨hreaches, hsent⟩
  · simp only [hsame] at h
    refine finish_reaches .input (fun before => ?_) h
    simp only [turn, resting, hactivity, shutdownTurn, hleft, hwrite]
    rfl
  · refine hreaches.trans ?_
    cases sent with
    | error fault =>
        obtain ⟨hempty, hflush⟩ := hsent.resolve_left (by simp)
        refine finish_reaches .input (fun before => ?_) h
        simp only [turn, resting, hactivity, shutdownTurn, hempty, ← hflush, if_true]
    | ok passed =>
        cases passed with
        | true =>
            obtain ⟨hempty, hflush⟩ := hsent.resolve_left (by simp)
            refine finish_reaches .input (fun before => ?_) h
            simp only [turn, resting, hactivity, shutdownTurn, hempty, ← hflush, if_true]
        | false =>
            dsimp only at h
            split at h
            · rename_i hlate
              refine finish_reaches .tick (fun before => ?_) h
              simp only [turn, resting, hactivity, shutdownTurn, hlate, if_true]
            · split at h
              · cases h
              · cases h
                exact .refl _

end

/-- A turn that a session takes in one go. -/
theorem turn_reaches (world : World E N) (hjobs : world.jobs = []) (hsequel : world.sequel? = none)
    {next : Session E N × Duplex} (h : world.session.turn world.duplex = some next) :
    Reaches world (world.become next) := by
  obtain ⟨session, duplex, jobs, sequel?, threads, record⟩ := world
  cases hjobs
  cases hsequel
  simp only [Session.turn] at h
  split at h
  · cases h
  · cases h
  · cases h
  · rename_i hactivity
    exact start_reaches hactivity h
  · rename_i flush hactivity
    exact flushStep_reaches hactivity h
  · rename_i deadline hactivity
    exact shutdown_reaches hactivity h
  · rename_i hactivity
    split at h
    · rename_i hclosed
      exact end_reaches hactivity hclosed h
    · exact wait_reaches hactivity h

theorem errands_reach {errands : List (Errand E N)} {session last : Session E N}
    (h : Settles Session.runErrand errands session last) : ∀ (world : World E N)
    (front : List (List (Errand E N))), ∃ moves : List (Move E N),
    { world with session, threads := front ++ [errands] }.run moves
      = { world with session := last, threads := front ++ [[]] } := by
  induction h with
  | nil session =>
      intro world front
      exact ⟨[], rfl⟩
  | @cons errand rest session last h ih =>
      intro world front
      obtain ⟨moves, hmoves⟩ := ih world front
      refine ⟨.thread front.length :: moves, ?_⟩
      rw [← hmoves]
      simp only [run, List.foldl_cons, step, runThread, List.getElem?_concat_length]
      rw [List.set_append_right _ _ (Nat.le_refl _), Nat.sub_self, List.set_cons_zero]

/-- A program that a thread runs in one go. -/
theorem program_reaches (world : World E N) (program : Hook E N) :
    ∃ moves : List (Move E N), world.run (.spawn program :: moves)
      = { world with
          session := world.session.runHook program
          threads := world.threads ++ [[]] } :=
  errands_reach (Session.settles_runHook world.session program) world world.threads

end World
end PhaseWire
