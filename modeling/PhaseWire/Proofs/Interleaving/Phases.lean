import PhaseWire.Proofs.Interleaving.Course

/-
# Both accounts of the phase agree

Nothing else than a job does anything to the course of a session
(`step_steered`), so what one job does is what a move does, and a turn
begins with no change under way (`IsSteady`).  From there the run lemma
(`run_course`) carries along that the next job goes on with a change, and
that the next packet is encoded in its phase.

A frame comes in at one place only, the turn of its packet
(`step_framed`).
-/

namespace PhaseWire

variable {E N : Type} [CustomPackets E]

namespace World

variable (world : World E N)

def beginning? (pick : Pick) : Option (Job E N) :=
  match world.session.activity, pick, world.session.channel with
  | .waiting, .command, command :: _ => some (.execute command)
  | _, _, _ => none

/-- The job that a move does: the next one of the turn, or the command that a turn begins with. -/
def doing? : Move E N → Option (Job E N)
  | .drive pick =>
    match world.jobs, world.sequel? with
    | job :: _, _ => some job
    | [], some _ => none
    | [], none => world.beginning? pick
  | _ => none

def entered : List Phase :=
  world.session.course.entered

def received : List (Packet E) :=
  world.session.course.received

theorem doing_job {world : World E N} {pick : Pick} {job : Job E N} {rest : List (Job E N)}
    (h : world.jobs = job :: rest) : world.doing? (.drive pick) = some job := by
  simp only [doing?, h]

/-- The bearing of the session is as it was, and no change of phase is under way. -/
def IsSteady (next : World E N) : Prop :=
  next.session.bearing = world.session.bearing ∧ changesIn next.jobs = []

section

variable (hjobs : world.jobs = [])
include hjobs

theorem takeFrame_steady {session : Session E N} {duplex : Duplex} (incoming : Bytes)
    (h : session.bearing = world.session.bearing) :
    world.IsSteady ({ world with session, duplex }.takeFrame incoming) := by
  have hpackets := session.codec.packets_decode incoming
  have hsame : ∀ (codec : ConnectionCodec E) (unseen : Bool),
      codec.packets = session.codec.packets →
      { session with codec, unseen }.bearing = world.session.bearing := by
    intro codec unseen hcodec
    rw [← h]
    simp only [Session.bearing, Session.course, hcodec]
  rw [takeFrame]
  dsimp only
  split
  · rename_i packet codec hdecode
    rw [hdecode] at hpackets
    exact ⟨hsame codec true hpackets, rfl⟩
  · rename_i fault codec hdecode
    rw [hdecode] at hpackets
    exact ⟨hsame codec false hpackets, rfl⟩
  · rename_i codec hdecode
    rw [hdecode] at hpackets
    split
    · exact ⟨hsame codec false hpackets, rfl⟩
    · exact ⟨hsame codec false hpackets, congrArg changesIn hjobs⟩

theorem waitTurn_steady {pick : Pick} (hactivity : world.session.activity = .waiting)
    (hnone : world.beginning? pick = none) : world.IsSteady (world.waitTurn pick) := by
  have hstay : world.IsSteady world := ⟨rfl, congrArg changesIn hjobs⟩
  cases pick with
  | stop =>
      rw [waitTurn]
      split
      · exact ⟨rfl, rfl⟩
      · exact hstay
  | command =>
      rw [waitTurn]
      split
      · rename_i command channel hchannel
        simp only [beginning?, hactivity, hchannel, reduceCtorEq] at hnone
      · exact hstay
  | tick =>
      rw [waitTurn]
      split
      · split
        · exact ⟨rfl, rfl⟩
        · exact ⟨rfl, congrArg changesIn hjobs⟩
      · exact hstay
  | input =>
      rw [waitTurn]
      split
      · exact hstay
      · split
        · exact world.takeFrame_steady hjobs [] rfl
        · rw [takeInput]
          split
          · exact world.takeFrame_steady hjobs _ rfl
          · exact hstay
          · exact world.takeFrame_steady hjobs _ rfl
          · exact ⟨rfl, rfl⟩

theorem flushTurn_steady (flush : Flush) (pick : Pick) :
    world.IsSteady (world.flushTurn flush pick) := by
  have hstay : world.IsSteady world := ⟨rfl, congrArg changesIn hjobs⟩
  have hfailed : ∀ fault, world.IsSteady (world.settleFailed flush fault) :=
    fun fault => ⟨rfl, changesIn_bury flush fault⟩
  have hwrite : world.IsSteady (world.flushWrite flush) := by
    rw [flushWrite]
    split
    · split
      · exact hfailed _
      · exact ⟨rfl, changesIn_tell flush.tags _⟩
      · exact hstay
    · split
      · exact hfailed _
      · exact ⟨rfl, congrArg changesIn hjobs⟩
  cases pick with
  | stop =>
      rw [flushTurn]
      split
      · exact hfailed .closed
      · exact hstay
  | tick =>
      rw [flushTurn]
      split
      · rw [settleLate]
        split
        · exact hfailed .timeout
        · exact ⟨rfl, changesIn_bury flush .timeout⟩
      · exact hstay
  | command => exact hwrite
  | input => exact hwrite

theorem shutdownTurn_steady (deadline : Instant) (pick : Pick) :
    world.IsSteady (world.shutdownTurn deadline pick) := by
  have hnone : changesIn world.jobs = [] := congrArg changesIn hjobs
  unfold shutdownTurn
  split
  · split
    · exact ⟨rfl, hnone⟩
    · exact ⟨rfl, hnone⟩
  · split
    · split
      · exact ⟨rfl, hnone⟩
      · exact ⟨rfl, hnone⟩
    · split
      · exact ⟨rfl, hnone⟩
      · exact ⟨rfl, hnone⟩

theorem conclude_steady (sequel : Sequel) : world.IsSteady (world.conclude sequel) := by
  have hnone : changesIn world.jobs = [] := congrArg changesIn hjobs
  cases sequel with
  | flush afterwards => exact ⟨world.session.beginFlush_bearing _ afterwards, hnone⟩
  | goOn afterwards => exact ⟨Session.proceed_bearing _ _ afterwards, hnone⟩
  | dropLeft =>
      rw [conclude]
      split
      · exact ⟨Session.bearing_abandon _ _, hnone⟩
      · exact ⟨world.session.beginFlush_bearing _ .shutdown, hnone⟩

theorem startTurn_steady : world.IsSteady world.startTurn := by
  rw [startTurn]
  split
  · exact ⟨rfl, changesIn_executes _⟩
  · exact ⟨Session.proceed_bearing _ world.duplex .firstWait, congrArg changesIn hjobs⟩

theorem turn_steady {pick : Pick} (hnone : world.beginning? pick = none) :
    world.IsSteady (world.turn pick) := by
  have hstay : world.IsSteady world := ⟨rfl, congrArg changesIn hjobs⟩
  rw [turn]
  split
  · exact hstay
  · exact hstay
  · exact hstay
  · exact world.startTurn_steady hjobs
  · rename_i hactivity
    exact world.waitTurn_steady hjobs hactivity hnone
  · exact world.flushTurn_steady hjobs _ pick
  · exact world.shutdownTurn_steady hjobs _ pick

end

theorem drive_idle {pick : Pick} (hnone : world.doing? (.drive pick) = none) :
    (world.drive pick).session.bearing = world.session.bearing
      ∧ world.jobs = [] ∧ changesIn (world.drive pick).jobs = [] := by
  cases hjobs : world.jobs with
  | cons job rest =>
      rw [doing_job hjobs] at hnone
      cases hnone
  | nil =>
      cases hsequel : world.sequel? with
      | some sequel =>
          simp only [drive, hjobs, hsequel]
          obtain ⟨hbearing, hchanges⟩ := world.conclude_steady hjobs sequel
          exact ⟨hbearing, True.intro, hchanges⟩
      | none =>
          simp only [doing?, hjobs, hsequel] at hnone
          simp only [drive, hjobs, hsequel]
          obtain ⟨hbearing, hchanges⟩ := world.turn_steady hjobs hnone
          exact ⟨hbearing, True.intro, hchanges⟩

/-- A move that does no job leaves the bearing of a session alone, unless it sets the clocks or
brings a transport. -/
theorem step_bearing {move : Move E N} (hnone : world.doing? move = none) :
    (world.step move).session.bearing = world.session.bearing
      ∨ (∃ surroundings, move = .surround surroundings
          ∧ (world.step move).session.bearing = { world.session.bearing with surroundings })
      ∨ (∃ options duplex, move = .attach options duplex ∧ world.session.activity = .detached
          ∧ (world.step move).session.bearing
            = { world.session.bearing with side := options.side }) := by
  cases move with
  | spawn program => exact .inl rfl
  | thread index =>
      left
      rw [step, runThread]
      split
      · exact world.session.runErrand_bearing _
      · rfl
  | attach options duplex =>
      rw [step, Session.attach]
      by_cases hdetached : world.session.activity = .detached
      · rw [if_pos hdetached]
        exact .inr (.inr ⟨options, duplex, rfl, hdetached, rfl⟩)
      · rw [if_neg hdetached]
        exact .inl rfl
  | surround surroundings => exact .inr (.inl ⟨surroundings, rfl, rfl⟩)
  | transport duplex => exact .inl rfl
  | drive pick => exact .inl (world.drive_idle hnone).1

/-- Without a job to do, the jobs stay as they are, or none of those that are taken up is about a
change of phase. -/
theorem step_jobs {move : Move E N} (hnone : world.doing? move = none) :
    (world.step move).jobs = world.jobs
      ∨ world.jobs = [] ∧ changesIn (world.step move).jobs = [] := by
  cases move with
  | spawn program => exact .inl rfl
  | thread index =>
      left
      rw [step, runThread]
      split
      · rfl
      · rfl
  | attach options duplex =>
      left
      rw [step]
      split
      · rfl
      · rfl
  | surround surroundings => exact .inl rfl
  | transport duplex => exact .inl rfl
  | drive pick => exact .inr (world.drive_idle hnone).2

theorem step_course {move : Move E N} (hnone : world.doing? move = none) :
    (world.step move).session.course = world.session.course := by
  rcases world.step_bearing hnone with hsame | ⟨_, -, hsame⟩ | ⟨_, _, -, -, hsame⟩
  · exact congrArg Bearing.course hsame
  · exact congrArg Bearing.course hsame
  · exact congrArg Bearing.course hsame

theorem step_takes {move : Move E N} {job : Job E N} (hdoing : world.doing? move = some job) :
    ∃ channel, channel <:+ world.session.channel
      ∧ (world.step move).session = ({ world.session with channel }.runJob job).2
      ∧ (world.step move).jobs
        = ({ world.session with channel }.runJob job).1 ++ world.jobs.tail := by
  cases move with
  | drive pick =>
      rw [step]
      cases hjobs : world.jobs with
      | cons first rest =>
          rw [doing_job hjobs] at hdoing
          cases hdoing
          rw [drive_job hjobs]
          exact ⟨world.session.channel, List.suffix_rfl, rfl, rfl⟩
      | nil =>
          cases hsequel : world.sequel? with
          | some sequel => simp only [doing?, hjobs, hsequel, reduceCtorEq] at hdoing
          | none =>
              simp only [doing?, hjobs, hsequel] at hdoing
              unfold beginning? at hdoing
              split at hdoing
              · rename_i command channel hactivity hchannel
                cases hdoing
                simp only [drive, hjobs, hsequel, turn, hactivity, waitTurn, hchannel]
                exact ⟨channel, List.suffix_cons _ _, rfl, (List.append_nil _).symm⟩
              · cases hdoing
  | _ => cases hdoing

theorem step_doing {move : Move E N} {job : Job E N} (hdoing : world.doing? move = some job) :
    ∃ channel, (world.step move).session = ({ world.session with channel }.runJob job).2
      ∧ (world.step move).jobs
        = ({ world.session with channel }.runJob job).1 ++ world.jobs.tail := by
  obtain ⟨channel, -, hstep⟩ := world.step_takes hdoing
  exact ⟨channel, hstep⟩

theorem doing_first {move : Move E N} {job : Job E N} (hdoing : world.doing? move = some job) :
    world.jobs = job :: world.jobs.tail
      ∨ world.jobs = [] ∧ ∃ command, job = .execute command := by
  cases move with
  | drive pick =>
      cases hjobs : world.jobs with
      | cons first rest =>
          rw [doing_job hjobs] at hdoing
          cases hdoing
          exact .inl rfl
      | nil =>
          cases hsequel : world.sequel? with
          | some sequel => simp only [doing?, hjobs, hsequel, reduceCtorEq] at hdoing
          | none =>
              simp only [doing?, hjobs, hsequel] at hdoing
              unfold beginning? at hdoing
              split at hdoing
              · cases hdoing
                exact .inr ⟨rfl, _, rfl⟩
              · cases hdoing
  | _ => cases hdoing

/-- While a job is done that is no part of a change, no change is under way. -/
theorem changesIn_of_doing {move : Move E N} {job : Job E N}
    (h : world.session.course.IsSound world.jobs) (hdoing : world.doing? move = some job)
    (hjob : job.change? = none) : changesIn world.jobs = [] := by
  rcases world.doing_first hdoing with hfirst | ⟨hempty, -⟩
  · rw [hfirst, changesIn, List.filterMap_cons_none hjob]
    exact h.first
  · rw [hempty]
    rfl

/-- All that a move does to the course of a session. -/
theorem step_steered (move : Move E N) :
    (world.step move).session.course = world.session.course
        ∧ ((world.step move).jobs = world.jobs
          ∨ world.jobs = [] ∧ changesIn (world.step move).jobs = [])
      ∨ ∃ job jobs, world.doing? move = some job
        ∧ (world.step move).jobs = jobs ++ world.jobs.tail
        ∧ Steered world.session.fate world.session.course job jobs
          (world.step move).session.course := by
  cases hdoing : world.doing? move with
  | none => exact .inl ⟨world.step_course hdoing, world.step_jobs hdoing⟩
  | some job =>
      obtain ⟨channel, hsession, hjobs⟩ := world.step_doing hdoing
      refine .inr ⟨job, _, rfl, hjobs, ?_⟩
      rw [hsession]
      exact { world.session with channel }.runJob_steered job

theorem step_aimed (move : Move E N) (h : world.session.course.IsAimed world.jobs)
    (horderly : Orderly False world.session world.jobs) :
    (world.step move).session.course.IsAimed (world.step move).jobs := by
  cases move with
  | spawn program => exact h
  | thread index =>
      rw [step, runThread]
      split
      · dsimp only
        rw [world.session.runErrand_course]
        exact h
      · exact h
  | attach options duplex =>
      rw [step, Session.attach]
      split
      · rename_i hattach
        split at hattach
        · cases hattach
          exact h
        · cases hattach
      · exact h
  | surround surroundings => exact h
  | transport duplex => exact h
  | drive pick =>
      rw [step]
      cases hjobs : world.jobs with
      | nil => exact .calm (world.drive_calm pick hjobs)
      | cons job rest =>
          rw [hjobs] at h horderly
          rw [drive_job hjobs]
          intro packet tag? next? hmem
          rcases List.mem_append.mp hmem with hfirst | hrest
          · exact world.session.runJob_aimed job packet tag? next? hfirst
          · -- what comes before a packet that was about to be encoded leaves the phase alone
            have hsame := world.session.runStep_packets (horderly.step_first hrest)
            dsimp only
            rw [hsame]
            exact h packet tag? next? (List.mem_cons_of_mem _ hrest)

theorem drive_framed {pick : Pick} {packet : Packet E} {tag? : Option Tag}
    {next? : Option (Reply → Script E N)} {rest : List (Job E N)}
    (hjobs : world.jobs = .encode packet tag? next? :: rest) :
    (world.drive pick).record.frames = world.record.frames
        ∧ (world.drive pick).session.outgoing = world.session.outgoing
      ∨ ∃ sent codec, world.session.codec.encode packet = .ok (sent, codec)
          ∧ (world.drive pick).record.frames = world.record.frames ++ [(tag?, sent.wire)]
          ∧ (world.drive pick).session.outgoing = world.session.outgoing ++ sent.wire := by
  rw [drive_job hjobs]
  simp only [Session.runJob, Session.runEncode, Record.note]
  cases hencode : world.session.codec.encode packet with
  | error fault => exact .inl ⟨rfl, rfl⟩
  | ok result =>
      obtain ⟨sent, codec⟩ := result
      exact .inr ⟨sent, codec, rfl, rfl, rfl⟩

theorem step_framed (move : Move E N) :
    (world.step move).record.frames = world.record.frames
        ∧ (world.step move).session.outgoing <:+ world.session.outgoing
      ∨ ∃ packet tag? next? sent codec, .encode packet tag? next? ∈ world.jobs
          ∧ world.session.codec.encode packet = .ok (sent, codec)
          ∧ (world.step move).record.frames = world.record.frames ++ [(tag?, sent.wire)]
          ∧ (world.step move).session.outgoing = world.session.outgoing ++ sent.wire := by
  cases move with
  | spawn program => exact .inl ⟨rfl, List.suffix_rfl⟩
  | thread index =>
      left
      rw [step, runThread]
      split
      · exact ⟨rfl, (world.session.runErrand_outgoing _) ▸ List.suffix_rfl⟩
      · exact ⟨rfl, List.suffix_rfl⟩
  | attach options duplex =>
      left
      rw [step, Session.attach]
      split
      · rename_i hattach
        split at hattach
        · cases hattach
          exact ⟨rfl, List.suffix_rfl⟩
        · cases hattach
      · exact ⟨rfl, List.suffix_rfl⟩
  | surround surroundings => exact .inl ⟨rfl, List.suffix_rfl⟩
  | transport duplex => exact .inl ⟨rfl, List.suffix_rfl⟩
  | drive pick =>
      have hother : (∀ packet tag? next? rest, world.jobs ≠ .encode packet tag? next? :: rest) →
          (world.drive pick).record.frames = world.record.frames
            ∧ (world.drive pick).session.outgoing <:+ world.session.outgoing :=
        fun hcalm => (world.drive_entry pick).unframed hcalm
      rw [step]
      cases hjobs : world.jobs with
      | nil =>
          refine .inl (hother fun packet tag? next? rest hfull => ?_)
          cases hjobs.symm.trans hfull
      | cons job rest =>
          cases job with
          | encode packet tag? next? =>
              rcases world.drive_framed hjobs with ⟨hframes, hsame⟩ | ⟨sent, codec, hframed⟩
              · exact .inl ⟨hframes, hsame ▸ List.suffix_rfl⟩
              · exact .inr ⟨packet, tag?, next?, sent, codec, List.mem_cons_self, hframed⟩
          | _ =>
              refine .inl (hother fun packet tag? next? rest hfull => ?_)
              cases hjobs.symm.trans hfull

theorem step_sound (move : Move E N) (h : world.session.course.IsSound world.jobs) :
    (world.step move).session.course.IsSound (world.step move).jobs := by
  rcases world.step_steered move with ⟨hsame, hstay⟩ | ⟨job, jobs, hdoing, hjobs, hsteered⟩
  · rw [hsame]
    rcases hstay with hjobs | ⟨hnone, hleft⟩
    · rw [hjobs]
      exact h
    · exact h.still (congrArg changesIn hnone) hleft
  · rw [hjobs]
    refine Course.IsSound.steered ?_ hsteered
    rcases world.doing_first hdoing with hfirst | ⟨hnone, command, rfl⟩
    · rw [hfirst] at h
      exact h
    · rw [hnone] at h ⊢
      exact h.still rfl rfl

/-- Under any schedule the account of the phase is sound, and whatever is about to be encoded is of
the phase where the session is. -/
theorem run_course (registry : Registry E) (listener : Listener E N) (moves : List (Move E N)) :
    let world := (World.new registry listener).run moves
    world.session.course.IsSound world.jobs ∧ world.session.course.packets.registry = registry
      ∧ world.session.listener = listener ∧ world.session.course.IsAimed world.jobs := by
  intro world
  have hrun := run_preserves (P := fun world : World E N => world.session.course.IsSound world.jobs
    ∧ world.session.course.packets.registry = registry ∧ world.session.listener = listener
    ∧ world.session.course.IsAimed world.jobs ∧ Orderly False world.session world.jobs) moves ?_
    (World.new registry listener) ?_
  · obtain ⟨hsound, hregistry, hlistener, haimed, -⟩ := hrun
    exact ⟨hsound, hregistry, hlistener, haimed⟩
  · rintro move - world ⟨hsound, hregistry, hlistener, haimed, horderly⟩
    refine ⟨world.step_sound move hsound, ?_, (world.step_listener move).trans hlistener,
      world.step_aimed move haimed horderly,
      world.step_orderly move horderly False.elim False.elim⟩
    rcases world.step_steered move with ⟨hsame, -⟩ | ⟨job, jobs, -, -, hsteered⟩
    · rw [hsame]
      exact hregistry
    · exact hsteered.registry_eq.trans hregistry
  · exact ⟨⟨List.isChain_singleton _, rfl, rfl, rfl⟩, rfl, rfl, .calm (List.forall_mem_nil _),
      .calm (List.forall_mem_nil _)⟩

/-- The changes of phase that the listener was told of or is about to be told of. -/
def changes (world : World E N) : List Phase :=
  world.entered ++ changesIn world.jobs

/-- What the listener is about to be told of is one change at most, and the next job is about it. -/
theorem changesIn_of_sound {course : Course E} {jobs : List (Job E N)} (h : course.IsSound jobs)
    {phase : Phase} (hphase : phase ∈ changesIn jobs) :
    changesIn jobs = [phase]
      ∧ (jobs.head? = some (.enter phase) ∧ shownIn jobs = []
        ∨ jobs.head? = some (.tell phase) ∧ shownIn jobs = [phase]) := by
  cases jobs with
  | nil => cases hphase
  | cons job rest =>
      have hrest : changesIn rest = [] := h.first
      cases job with
      | enter other =>
          have hchanges : changesIn (.enter other :: rest) = [other] :=
            congrArg (other :: ·) hrest
          rw [hchanges] at hphase
          obtain rfl := List.mem_singleton.mp hphase
          exact ⟨hchanges, .inl ⟨rfl, (List.filterMap_cons_none rfl).trans (shownIn_nil hrest)⟩⟩
      | tell other =>
          have hchanges : changesIn (.tell other :: rest) = [other] := congrArg (other :: ·) hrest
          rw [hchanges] at hphase
          obtain rfl := List.mem_singleton.mp hphase
          exact ⟨hchanges, .inr ⟨rfl, congrArg (phase :: ·) (shownIn_nil hrest)⟩⟩
      | _ =>
          have hnone : phase ∈ changesIn rest := hphase
          rw [hrest] at hnone
          cases hnone

theorem step_change {move : Move E N} {job : Job E N} {phase : Phase}
    (hdoing : world.doing? move = some job) (hjob : job.change? = some phase) :
    job = .enter phase ∧ (world.step move).session.phase = phase
        ∧ (world.step move).entered = world.entered
        ∧ (world.step move).jobs = .tell phase :: world.jobs.tail
      ∨ job = .tell phase ∧ (world.step move).session.phase = world.session.phase
        ∧ (world.step move).entered = world.entered ++ [phase]
        ∧ (world.step move).jobs
          = .errand (.hook (world.session.listener.onPhase phase)) :: world.jobs.tail := by
  obtain ⟨channel, hsession, hjobs⟩ := world.step_doing hdoing
  cases job with
  | enter other =>
      cases hjob
      refine .inl ⟨rfl, ?_, ?_, hjobs⟩
      · rw [hsession]
        rfl
      · rw [entered, hsession]
        rfl
  | tell other =>
      cases hjob
      refine .inr ⟨rfl, ?_, ?_, hjobs⟩
      · rw [hsession]
        rfl
      · rw [entered, hsession, Session.runJob]
        simp [Session.course, Session.log, Event.phase?, entered]
  | _ => cases hjob

/-- A request for a phase, made while everybody sees the phase of the codec. -/
theorem step_asked {move : Move E N} {job : Job E N} {phase : Phase}
    (hdoing : world.doing? move = some job) (hasked : job.asked? = some phase)
    (hagree : world.session.phase = world.session.codec.phase) :
    if world.session.phase.canMoveTo phase then
      (world.step move).session.codec.phase = phase
        ∧ (world.step move).jobs = (if world.session.phase = phase then [] else [.enter phase])
          ++ job.answer (.ok ()) ++ world.jobs.tail
    else
      (world.step move).jobs = job.answer (.error (.setup
          s!"cannot move from {world.session.phase.name} to {phase.name}")) ++ world.jobs.tail
        ∧ ∃ channel events,
          (world.step move).session
              = { world.session with channel, events := world.session.events ++ events }
            ∧ events.Sublist [.executed (.setPhase phase)] := by
  obtain ⟨channel, hsession, hjobs⟩ := world.step_doing hdoing
  rw [hsession, hjobs, hagree]
  split
  · rename_i hmay
    obtain ⟨hphase, hleft⟩ := { world.session with channel }.runJob_granted hasked hmay
    refine ⟨hphase, ?_⟩
    rw [hleft]
  · rename_i hmay
    obtain ⟨events, hrun, hevents⟩ := { world.session with channel }.runJob_refused hasked hmay
    rw [hrun]
    exact ⟨rfl, channel, events, rfl, hevents⟩

/-- A move that changes the codec's phase begins a change; any other takes no change back and adds
none. -/
theorem step_changes (move : Move E N) (h : world.session.course.IsSound world.jobs) :
    (world.step move).session.codec.phase = world.session.codec.phase
        ∧ (world.step move).changes = world.changes
      ∨ (world.step move).session.codec.phase ≠ world.session.codec.phase
        ∧ world.changes = world.entered
        ∧ (world.step move).changes = world.changes ++ [(world.step move).session.codec.phase]
        ∧ ∃ rest, (world.step move).jobs
          = .enter (world.step move).session.codec.phase :: rest := by
  rcases world.step_steered move with ⟨hsame, hstay⟩ | ⟨job, jobs, hdoing, hjobs, hsteered⟩
  · refine .inl ⟨congrArg (·.packets.phase) hsame, ?_⟩
    rw [changes, changes, entered, entered, hsame]
    rcases hstay with hjobs | ⟨hnone, hleft⟩
    · rw [hjobs]
    · rw [hnone, hleft]
      rfl
  · have htail : changesIn world.jobs.tail = [] := h.first
    have hbefore : changesIn world.jobs = job.change?.toList := by
      rcases world.doing_first hdoing with hfirst | ⟨hnone, command, rfl⟩
      · rw [hfirst, changesIn, List.filterMap_cons]
        cases job.change? with
        | none => exact htail
        | some phase => exact congrArg (phase :: ·) htail
      · rw [hnone]
        rfl
    have hafter : changesIn (world.step move).jobs = changesIn jobs := by
      rw [hjobs, changesIn_append, htail, List.append_nil]
    rcases hsteered.changes with ⟨hpackets, hchanges⟩ | ⟨hphase, hjob, hentered, hchange, rest, hnext⟩
    · refine .inl ⟨congrArg PacketCodec.phase hpackets, ?_⟩
      rw [changes, changes, hbefore, hafter]
      exact hchanges
    · rw [hjob] at hbefore
      have hsame : world.changes = world.entered := by
        rw [changes, hbefore]
        exact List.append_nil _
      refine .inr ⟨fun hstay => hphase hstay.symm, hsame, ?_, rest ++ world.jobs.tail, ?_⟩
      · rw [hsame, changes, hafter, hchange]
        exact congrArg (· ++ _) hentered
      · rw [hjobs, hnext]
        rfl

/-- Under any schedule, a session changes its phase in three steps that follow each other: first the
codec changes, then everybody sees the phase, and then the listener is told of it.  Unless a change
is under way, the phase in which packets are encoded and decoded is the one that everybody sees, and
the last that the listener was told of.  The listener is told of each change once and of nothing
else.  A request for a phase is granted where a connection may move there; otherwise it is refused,
and the session stays as it is.  And a frame comes in only when the session is in the phase of its
packet. -/
theorem phases_agree (registry : Registry E) (listener : Listener E N) (moves : List (Move E N))
    (move : Move E N) :
    let world := (World.new registry listener).run moves
    let next := world.step move
    (changesIn world.jobs = [] → world.session.phase = world.session.codec.phase
        ∧ world.entered.getLastD .handshake = world.session.phase)
      ∧ (∀ phase ∈ changesIn world.jobs, changesIn world.jobs = [phase]
        ∧ world.session.codec.phase = phase
        ∧ (world.jobs.head? = some (.enter phase)
            ∧ world.entered.getLastD .handshake = world.session.phase
          ∨ world.jobs.head? = some (.tell phase) ∧ world.session.phase = phase))
      ∧ (.handshake :: world.changes).IsChain (· ≠ ·)
      ∧ (next.session.codec.phase = world.session.codec.phase ∧ next.changes = world.changes
        ∨ next.session.codec.phase ≠ world.session.codec.phase
          ∧ world.changes = world.entered
          ∧ next.changes = world.changes ++ [next.session.codec.phase]
          ∧ ∃ rest, next.jobs = .enter next.session.codec.phase :: rest)
      ∧ (∀ job phase, world.doing? move = some job → job.change? = some phase →
        job = .enter phase ∧ next.session.phase = phase ∧ next.entered = world.entered
            ∧ next.jobs = .tell phase :: world.jobs.tail
          ∨ job = .tell phase ∧ next.session.phase = world.session.phase
            ∧ next.entered = world.entered ++ [phase]
            ∧ next.jobs = .errand (.hook (listener.onPhase phase)) :: world.jobs.tail)
      ∧ (∀ job phase, world.doing? move = some job → job.asked? = some phase →
        if world.session.phase.canMoveTo phase then
          next.session.codec.phase = phase
            ∧ next.jobs = (if world.session.phase = phase then [] else [.enter phase])
              ++ job.answer (.ok ()) ++ world.jobs.tail
        else
          next.jobs = job.answer (.error (.setup
              s!"cannot move from {world.session.phase.name} to {phase.name}")) ++ world.jobs.tail
            ∧ ∃ channel events,
              next.session
                  = { world.session with channel, events := world.session.events ++ events }
                ∧ events.Sublist [.executed (.setPhase phase)])
      ∧ (next.record.frames = world.record.frames
            ∧ next.session.outgoing <:+ world.session.outgoing
        ∨ ∃ packet tag? sent codec descriptor,
          world.session.codec.encode packet = .ok (sent, codec)
            ∧ next.record.frames = world.record.frames ++ [(tag?, sent.wire)]
            ∧ next.session.outgoing = world.session.outgoing ++ sent.wire
            ∧ registry.ofPacket packet = .ok descriptor
            ∧ world.session.codec.phase = descriptor.phase) := by
  intro world next
  obtain ⟨hsound, hregistry, hlistener, haimed⟩ := run_course registry listener moves
  have hsound : world.session.course.IsSound world.jobs := hsound
  have hlast : (world.entered ++ changesIn world.jobs).getLastD .handshake
      = world.session.codec.phase := hsound.codec
  have hshown : (world.entered ++ shownIn world.jobs).getLastD .handshake
      = world.session.phase := hsound.shown
  have hagree : changesIn world.jobs = [] → world.session.phase = world.session.codec.phase
      ∧ world.entered.getLastD .handshake = world.session.phase := by
    intro hnone
    rw [shownIn_nil hnone, List.append_nil] at hshown
    exact ⟨hsound.agree hnone, hshown⟩
  refine ⟨hagree, ?_, hsound.chain, world.step_changes move hsound, ?_, ?_, ?_⟩
  · intro phase hphase
    obtain ⟨hone, hwhere⟩ := changesIn_of_sound hsound hphase
    rw [hone, List.getLastD_concat] at hlast
    refine ⟨hone, hlast.symm, hwhere.imp (fun ⟨hhead, hnone⟩ => ?_) fun ⟨hhead, hsome⟩ => ?_⟩
    · rw [hnone, List.append_nil] at hshown
      exact ⟨hhead, hshown⟩
    · rw [hsome, List.getLastD_concat] at hshown
      exact ⟨hhead, hshown.symm⟩
  · intro job phase hdoing hjob
    rw [← hlistener]
    exact world.step_change hdoing hjob
  · intro job phase hdoing hasked
    -- Somebody asks only when no change is under way.
    have hjob : job.change? = none := Job.change?_of_asked hasked
    have hnone := world.changesIn_of_doing hsound hdoing hjob
    exact world.step_asked hdoing hasked (hagree hnone).1
  · rcases world.step_framed move with hsame |
      ⟨packet, tag?, next?, sent, codec, hmem, hencode, hframes, houtgoing⟩
    · exact .inl hsame
    · obtain ⟨descriptor, hdescriptor, hphase⟩ := haimed packet tag? next? hmem
      rw [hregistry] at hdescriptor
      exact .inr ⟨packet, tag?, sent, codec, descriptor, hencode, hframes, houtgoing, hdescriptor,
        hphase⟩

end World
end PhaseWire
