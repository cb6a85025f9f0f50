import PhaseWire.Proofs.Interleaving.Callbacks
import PhaseWire.Proofs.Session.Reading

/-
# The pulse — what a session knows of its peer

A session remembers when its peer was last known to be there and which
probe is open.  `Felt` lists what one job does to that: a keepalive of the
other side that is past the look counts as a sign of life whatever it
says, to enter play counts as one too, and the token of the open probe is
forgotten for an answer that is equal to it and for nothing else.  No other
job and no other move touches it (`step_pulse`).

The session judges its peer at a tick, by what it has read.  A tick comes
before the bytes that wait in the transport, and no bytes are read while a
flush is stalled, so what the peer has sent may lie there unread
(`answer_unread`).  Only of what the session did get round to reading it
can be said that the peer was silent (`silent_before_timeout`).
-/

namespace PhaseWire

variable {E N : Type}

/-- What a session knows of its peer, and where and when it is. -/
structure Pulse where
  side : Side
  surroundings : Surroundings
  /-- The phase that everybody sees. -/
  phase : Phase
  lastHeard : Instant
  probe? : Option Int32

namespace Pulse

/-- Everybody sees a phase from here on. -/
def enter (pulse : Pulse) (phase : Phase) : Pulse :=
  { pulse with
    phase
    lastHeard := if phase = .play then pulse.surroundings.wall else pulse.lastHeard }

/-- A sign of life.  The answer to the open probe settles it. -/
def hear (pulse : Pulse) (answer? : Option Int32) : Pulse :=
  { pulse with
    lastHeard := pulse.surroundings.wall
    probe? := if answer?.isSome && pulse.probe? = answer? then none else pulse.probe? }

theorem probe?_hear (pulse : Pulse) (id : Int32) :
    (pulse.hear (some id)).probe? = if pulse.probe? = some id then none else pulse.probe? := by
  simp [hear]

end Pulse

/-- All that a job does to the pulse of a session. -/
inductive Felt (pulse : Pulse) : Job E N → Pulse → Prop
  | same (job : Job E N) : Felt pulse job pulse
  | enter (phase : Phase) : Felt pulse (.enter phase) (pulse.enter phase)
  /-- A server gets an answer. -/
  | answer (id : Int32) : pulse.side = .server →
      Felt pulse (.handle (.core (.serverboundKeepAlive id))) (pulse.hear (some id))
  /-- A client is probed. -/
  | probed (id : Int32) : pulse.side = .client →
      Felt pulse (.handle (.core (.clientboundKeepAlive id))) (pulse.hear none)
  /-- A server is about to probe. -/
  | probe : Felt pulse .probe { pulse with probe? := some pulse.surroundings.random }

theorem Felt.side {pulse next : Pulse} {job : Job E N} (h : Felt pulse job next) :
    next.side = pulse.side := by
  cases h with
  | _ => rfl

/-- A job leaves the clock alone.  It is a sign of life, or it neither changes when the peer was
heard of nor moves the session into play. -/
theorem Felt.quiet {pulse next : Pulse} {job : Job E N} (h : Felt pulse job next) :
    next.surroundings = pulse.surroundings
      ∧ (next.lastHeard = pulse.surroundings.wall
        ∨ next.lastHeard = pulse.lastHeard ∧ (next.phase = .play → pulse.phase = .play)) := by
  cases h with
  | same job => exact ⟨rfl, .inr ⟨rfl, id⟩⟩
  | enter phase =>
      by_cases hplay : phase = .play
      · exact ⟨rfl, .inl (if_pos hplay)⟩
      · exact ⟨rfl, .inr ⟨if_neg hplay, fun h => (hplay h).elim⟩⟩
  | answer id hside => exact ⟨rfl, .inl rfl⟩
  | probed id hside => exact ⟨rfl, .inl rfl⟩
  | probe => exact ⟨rfl, .inr ⟨rfl, id⟩⟩

variable [CustomPackets E]

def Session.pulse (session : Session E N) : Pulse where
  side := session.options.side
  surroundings := session.surroundings
  phase := session.phase
  lastHeard := session.lastHeard
  probe? := session.probe?

def Bearing.pulse (bearing : Bearing E) : Pulse where
  side := bearing.side
  surroundings := bearing.surroundings
  phase := bearing.course.phase
  lastHeard := bearing.lastHeard
  probe? := bearing.probe?

theorem Felt.idle {session next : Session E N} {job : Job E N}
    (h : next.bearing = session.bearing) : Felt session.pulse job next.pulse := by
  rw [show next.pulse = session.pulse from congrArg Bearing.pulse h]
  exact .same job

/-! ## Jobs -/

namespace Session

variable (session : Session E N)

theorem beginPhase_pulse (phase : Phase) :
    (session.beginPhase phase).2.pulse = session.pulse := by
  rw [beginPhase]
  split
  · rfl
  · rfl

theorem runCommand_felt (command : Command E) :
    Felt session.pulse (.execute command : Job E N) (session.runCommand command).2.pulse := by
  cases command with
  | send packet tag? => exact .same _
  | setPhase phase =>
      rw [runCommand]
      split
      · rw [session.beginPhase_pulse phase]
        exact .same _
      · exact .same _
  | setThreshold threshold => exact .idle (session.bearing_setThreshold threshold)
  | encrypt key => exact .idle (session.bearing_encrypt key)

/-- To move to the phase of a packet does not show it yet. -/
theorem runApproach_pulse (packet : Packet E) (tag? : Option Tag)
    (next? : Option (Reply → Script E N)) :
    (session.runApproach packet tag? next?).2.pulse = session.pulse := by
  rw [runApproach]
  split
  · rfl
  · dsimp only
    rw [beginApproach]
    split
    · rfl
    · exact beginPhase_pulse _ _

theorem runScriptStep_felt (rest : Script E N) :
    Felt session.pulse (.script rest) (session.runScriptStep rest).2.pulse := by
  cases rest with
  | done result =>
      cases result with
      | ok _ => exact .same _
      | error fault => exact .same _
  | note note next => exact .same _
  | look next => exact .same _
  | act action next =>
      rw [runScriptStep]
      cases action with
      | send packet tag? => exact .same _
      | setPhase phase =>
          rw [runAction]
          split
          · dsimp only
            rw [session.beginPhase_pulse phase]
            exact .same _
          · rename_i hstay
            simp only [act, setPhase, if_neg hstay]
            exact .same _
      | setThreshold threshold => exact .idle (session.bearing_setThreshold threshold)
      | enableCompression => exact .idle session.bearing_enableCompression
      | encrypt key => exact .idle (session.bearing_encrypt key)
      | call call => exact .idle (session.enterCall_bearing call)

theorem runHandle_felt (packet : Packet E) :
    Felt session.pulse (.handle packet : Job E N) (session.runHandle packet).2.pulse := by
  unfold runHandle
  dsimp only
  split
  · exact .same _
  · split
    · rename_i id hside
      exact .answer id hside
    · rename_i id hside
      exact .probed id hside
    · exact .same _

theorem runJob_felt (job : Job E N) : Felt session.pulse job (session.runJob job).2.pulse := by
  cases job with
  | errand task => exact .idle (session.runErrand_bearing task)
  | execute command => exact (session.log (.executed command)).runCommand_felt command
  | write packet tag? next? => exact .same _
  | approach packet tag? next? =>
      rw [runJob, session.runApproach_pulse packet tag? next?]
      exact .same _
  | encode packet tag? next? => exact .idle (session.runEncode_bearing packet tag? next?)
  | enter phase => exact .enter phase
  | tell phase => exact .same _
  | complete tag? result => exact .idle (session.bearing_complete tag? result)
  | script rest => exact session.runScriptStep_felt rest
  | receive packet => exact .same _
  | handle packet => exact session.runHandle_felt packet
  | fail fault =>
      refine .idle ?_
      simp only [runJob, countFault]
      split
      · rfl
      · rfl
  | failIfOpen fault => exact .same _
  | tick =>
      rw [runJob, runTick]
      split
      · exact .same _
      · exact .idle (session.enterCheck_bearing session.options.keepaliveTimeout)
  | probe => exact .probe

end Session

/-! ## Moves -/

namespace World

variable (world : World E N)

theorem step_pulse (move : Move E N) :
    (world.step move).session.pulse = world.session.pulse
      ∨ (∃ surroundings, move = .surround surroundings
          ∧ (world.step move).session.pulse = { world.session.pulse with surroundings })
      ∨ (∃ options duplex, move = .attach options duplex ∧ world.session.activity = .detached
          ∧ (world.step move).session.pulse = { world.session.pulse with side := options.side })
      ∨ ∃ job, world.doing? move = some job
          ∧ Felt world.session.pulse job (world.step move).session.pulse := by
  cases hdoing : world.doing? move with
  | some job =>
      obtain ⟨channel, hsession, -⟩ := world.step_doing hdoing
      rw [hsession]
      exact .inr (.inr (.inr ⟨job, rfl, { world.session with channel }.runJob_felt job⟩))
  | none =>
      rcases world.step_bearing hdoing with
        hsame | ⟨surroundings, hmove, hsame⟩ | ⟨options, duplex, hmove, hdetached, hsame⟩
      · exact .inl (congrArg Bearing.pulse hsame)
      · exact .inr (.inl ⟨surroundings, hmove, congrArg Bearing.pulse hsame⟩)
      · exact .inr (.inr (.inl ⟨options, duplex, hmove, hdetached, congrArg Bearing.pulse hsame⟩))

theorem step_keepsAlive (move : Move E N) :
    (world.step move).session.keepsAlive = world.session.keepsAlive := by
  rw [Session.keepsAlive, Session.keepsAlive, world.step_registry move]

end World

/-! ## Keepalives that came in -/

namespace Session

variable (session : Session E N) (hkeeps : session.keepsAlive)
include hkeeps

theorem runHandle_answer (id : Int32) (hside : session.options.side = .server) :
    session.runHandle (.core (.serverboundKeepAlive id)) = ([], session.hear (some id)) := by
  simp only [runHandle, hkeeps, hside, Bool.not_true, Bool.false_eq_true, if_false]

theorem runHandle_probed (id : Int32) (hside : session.options.side = .client) :
    session.runHandle (.core (.clientboundKeepAlive id))
      = ([.write (.core (.serverboundKeepAlive id)) none none], session.hear none) := by
  simp only [runHandle, hkeeps, hside, Bool.not_true, Bool.false_eq_true, if_false]

/-- What a keepalive says does not matter: it is a sign of life. -/
theorem runHandle_kept {packet : Packet E} (hkept : session.options.side.keeps packet) :
    (session.runHandle packet).2.lastHeard = session.surroundings.wall := by
  rcases Side.keeps_cases session.options.side packet with
    ⟨id, hside, rfl⟩ | ⟨id, hside, rfl⟩ | hother
  · rw [session.runHandle_answer hkeeps id hside]
    rfl
  · rw [session.runHandle_probed hkeeps id hside]
    rfl
  · rw [hother] at hkept
    cases hkept

omit hkeeps in
theorem runHandle_other {packet : Packet E} (hother : session.options.side.keeps packet = false) :
    session.runHandle packet
      = ([.script (session.listener.onPacket packet)], session.log (.packet packet)) := by
  unfold runHandle
  dsimp only
  split
  · rfl
  · split
    · rename_i hside
      rw [hside] at hother
      cases hother
    · rename_i hside
      rw [hside] at hother
      cases hother
    · rfl

end Session

namespace World

def kept? (world : World E N) (move : Move E N) : Option (Packet E) :=
  match world.doing? move with
  | some (.handle packet) => if world.session.options.side.keeps packet then some packet else none
  | _ => none

/-- The keepalives that a session takes note of in a run. -/
def heard (world : World E N) (moves : List (Move E N)) : List (Packet E) :=
  world.gather kept? moves

end World

/-! ## Silence -/

/-- The time to which a move sets the clock by which silence is measured. -/
def Move.wall? : Move E N → Option Instant
  | surround surroundings => some surroundings.wall
  | _ => none

namespace World

variable (world : World E N)

/-- What the clock shows. -/
def now : Instant :=
  world.session.surroundings.wall

/-- The clock does not go back. -/
def KeepsTime (moves : List (Move E N)) : Prop :=
  (world.now :: moves.filterMap Move.wall?).IsChain (· ≤ ·)

theorem step_time {move : Move E N} {moves : List (Move E N)}
    (h : world.KeepsTime (move :: moves)) :
    world.now ≤ (world.step move).now ∧ (world.step move).KeepsTime moves := by
  have hstays : move.wall? = none → (world.step move).session.surroundings
      = world.session.surroundings →
      world.now ≤ (world.step move).now ∧ (world.step move).KeepsTime moves := by
    intro hnone hsame
    rw [KeepsTime, List.filterMap_cons, hnone] at h
    have hnow : (world.step move).now = world.now := congrArg Surroundings.wall hsame
    rw [KeepsTime, hnow]
    exact ⟨Nat.le_refl _, h⟩
  cases move with
  | surround surroundings =>
      rw [KeepsTime, List.filterMap_cons] at h
      exact ⟨h.rel, h.tail⟩
  | _ =>
      refine hstays rfl ?_
      rcases world.step_pulse _ with hsame | ⟨_, hmove, -⟩ | ⟨_, _, -, -, hattach⟩ | ⟨_, -, hfelt⟩
      · exact congrArg Pulse.surroundings hsame
      · cases hmove
      · exact congrArg Pulse.surroundings hattach
      · exact hfelt.quiet.1

theorem run_time (moves more : List (Move E N)) : ∀ world : World E N,
    world.KeepsTime (moves ++ more) → (world.run moves).KeepsTime more := by
  induction moves with
  | nil =>
      intro world h
      exact h
  | cons move moves ih =>
      intro world h
      exact ih (world.step move) (world.step_time h).2

/-- A move without a sign of life: nobody was heard of, and the session was in play before if it is
now. -/
theorem step_silent (move : Move E N) (hkeeps : world.session.keepsAlive) :
    (world.step move).session.lastHeard = world.now
      ∨ (world.step move).session.lastHeard = world.session.lastHeard
        ∧ world.kept? move = none
        ∧ ((world.step move).session.phase = .play → world.session.phase = .play) := by
  by_cases hkept : world.kept? move = none
  · rcases world.step_pulse move with
      hsame | ⟨_, rfl, -⟩ | ⟨_, _, rfl, -, hattach⟩ | ⟨job, -, hfelt⟩
    · refine .inr ⟨congrArg Pulse.lastHeard hsame, hkept, fun hplay => ?_⟩
      exact (congrArg Pulse.phase hsame).symm.trans hplay
    · exact .inr ⟨rfl, hkept, id⟩
    · refine .inr ⟨congrArg Pulse.lastHeard hattach, hkept, fun hplay => ?_⟩
      exact (congrArg Pulse.phase hattach).symm.trans hplay
    · rcases hfelt.quiet.2 with hnow | ⟨hsame, hplay⟩
      · exact .inl hnow
      · exact .inr ⟨hsame, hkept, hplay⟩
  · left
    unfold kept? at hkept
    split at hkept
    · rename_i packet hdoing
      split at hkept
      · rename_i hside
        obtain ⟨channel, hsession, -⟩ := world.step_doing hdoing
        rw [hsession]
        exact { world.session with channel }.runHandle_kept hkeeps hside
      · exact (hkept rfl).elim
    · exact (hkept rfl).elim

/-- If the peer was last known to be there before a run began, then the session heard nothing of it
in the run, and was in play all the time if it is at the end. -/
theorem run_silent (moves : List (Move E N)) : ∀ world : World E N,
    world.session.keepsAlive → world.KeepsTime moves →
    world.now ≤ (world.run moves).session.lastHeard
      ∨ (world.run moves).session.lastHeard = world.session.lastHeard
        ∧ world.heard moves = []
        ∧ ((world.run moves).session.phase = .play → world.session.phase = .play) := by
  induction moves with
  | nil =>
      intro world hkeeps htime
      exact .inr ⟨rfl, rfl, id⟩
  | cons move moves ih =>
      intro world hkeeps htime
      obtain ⟨hlater, htime'⟩ := world.step_time htime
      have hkeeps' := (world.step_keepsAlive move).trans hkeeps
      rcases ih (world.step move) hkeeps' htime' with hheard | ⟨hsame, hnone, hplay⟩
      · exact .inl (Nat.le_trans hlater hheard)
      · have hlast : (world.run (move :: moves)).session.lastHeard
            = (world.step move).session.lastHeard := hsame
        rcases world.step_silent move hkeeps with hnow | ⟨hfirst, hkept, hbefore⟩
        · refine .inl ?_
          rw [hlast, hnow]
          exact Nat.le_refl _
        · refine .inr ⟨hlast.trans hfirst, ?_, fun h => hbefore (hplay h)⟩
          rw [heard, gather, hkept]
          exact hnone

end World

/-! ## The judgement -/

/-- Whether a job closes the session for the silence of its peer. -/
def Job.isVerdict : Job E N → Bool
  | errand (.close reason false) => reason = Reason.timedOut
  | _ => false

namespace Session

variable (session : Session E N)

/-- The peer is judged in play and by its silence, in an open session. -/
theorem verdict_of_runTick (h : session.runTick.1.any Job.isVerdict) :
    session.codec.phase = .play ∧ ¬ session.isClosed
      ∧ session.options.keepaliveTimeout.nanos < session.silence := by
  rw [runTick] at h
  by_cases hplay : session.codec.phase = .play
  · rw [if_neg (not_not_intro hplay), enterCheck] at h
    by_cases hclosed : session.isClosed
    · rw [if_pos hclosed] at h
      cases h
    · refine ⟨hplay, hclosed, ?_⟩
      by_contra hheard
      rw [if_neg hclosed, if_neg hheard] at h
      -- all that a tick leaves then is the probe of a server
      by_cases hside : session.options.side = .server
      · simp [hside, Job.isVerdict] at h
      · simp [hside] at h
  · rw [if_pos hplay] at h
    cases h

theorem runTick_late (hplay : session.codec.phase = .play) (hopen : ¬ session.isClosed)
    (hlate : session.options.keepaliveTimeout.nanos < session.silence) :
    session.runTick.1 = [.errand (.close Reason.timedOut false)] := by
  rw [runTick, if_neg (not_not_intro hplay), enterCheck, if_neg hopen, if_pos hlate]
  rfl

end Session

namespace World

/-- Whether a move is the check of a tick, and the peer is found to be silent. -/
def findsSilence (world : World E N) (move : Move E N) : Bool :=
  match world.doing? move with
  | some .tick => world.session.runTick.1.any Job.isVerdict
  | _ => false

theorem findsSilence_iff {world : World E N} {move : Move E N} (h : world.findsSilence move) :
    world.doing? move = some .tick ∧ world.session.runTick.1.any Job.isVerdict := by
  unfold findsSilence at h
  split at h
  · rename_i hdoing
    exact ⟨hdoing, h⟩
  · cases h

/-- A tick that closes a session for silence finds it in play and open, and what is left to do is
that close.  At every moment of the run that is not longer ago than the limit, the session was in
play already; and since then it has taken note of no keepalive. -/
theorem silent_before_timeout (registry : Registry E) (listener : Listener E N)
    (moves : List (Move E N)) (move : Move E N)
    (hkeeps : (World.new registry listener).session.keepsAlive)
    (htime : (World.new registry listener).KeepsTime moves)
    (hsilent : ((World.new registry listener).run moves).findsSilence move) :
    let start := World.new registry listener
    let world := start.run moves
    let limit := world.session.options.keepaliveTimeout.nanos
    world.session.phase = .play ∧ ¬ world.session.isClosed
      ∧ (world.step move).jobs = .errand (.close Reason.timedOut false) :: world.jobs.tail
      ∧ world.session.lastHeard.nanos + limit < world.now.nanos
      ∧ ∀ before after, moves = before ++ after →
        world.now.nanos ≤ (start.run before).now.nanos + limit →
        (start.run before).session.phase = .play ∧ (start.run before).heard after = [] := by
  intro start world limit
  obtain ⟨hdoing, hverdict⟩ := findsSilence_iff hsilent
  obtain ⟨hplay, hopen, hlate⟩ := world.session.verdict_of_runTick hverdict
  have hlate : limit < world.now.nanos - world.session.lastHeard.nanos := hlate
  have hsound : world.session.course.IsSound world.jobs := (run_course registry listener moves).1
  have hphase : world.session.phase = .play :=
    (hsound.agree (world.changesIn_of_doing hsound hdoing rfl)).trans hplay
  refine ⟨hphase, hopen, ?_, by omega, ?_⟩
  · obtain ⟨channel, -, hleft⟩ := world.step_doing hdoing
    have hjobs := { world.session with channel }.runTick_late hplay hopen hlate
    rw [hleft]
    exact congrArg (· ++ world.jobs.tail) hjobs
  · rintro before after rfl hrecent
    have hkept : (start.run before).session.keepsAlive :=
      run_preserves (P := fun world : World E N => world.session.keepsAlive) before
        (fun move _ world h => (world.step_keepsAlive move).trans h) start hkeeps
    have hrun : world = (start.run before).run after := run_append start before after
    rcases run_silent after (start.run before) hkept (run_time before after start htime) with
      hheard | ⟨-, hnone, hbefore⟩
    · rw [← hrun, Instant.le_iff] at hheard
      omega
    · rw [← hrun] at hbefore
      exact ⟨hbefore hphase, hnone⟩

/-- A thread that takes a session to play. -/
def raising : Hook Empty Unit :=
  .call (.setPhase .login) fun _ => .call (.setPhase .play) fun _ => .done

/-- A server gets into play when the clock shows nothing, and five seconds pass. -/
def unheard : List (Move Empty Unit) :=
  [.spawn raising, .thread 0, .thread 0, .attach (.standard .server) (.new 64)]
    ++ List.replicate 10 (.drive .input) ++ [.surround ⟨.ofMillis 5000, .ofMillis 5000, 0⟩]

/-- Nothing comes in for half a minute more, and a tick begins. -/
def overdue : List (Move Empty Unit) :=
  [.drive .input, .surround ⟨.ofMillis 35000, .ofMillis 35000, 0⟩, .drive .tick]

theorem silent_before_timeout_of_overdue :
    let start := World.new (.standard .server) Listener.idle
    let world := start.run (unheard ++ overdue)
    start.session.keepsAlive ∧ start.KeepsTime (unheard ++ overdue)
      ∧ world.findsSilence (.drive .tick) ∧ world.session.phase = .play
      ∧ (start.run unheard).session.phase = .play ∧ (start.run unheard).heard overdue = [] := by
  have hkeeps : (World.new (.standard .server) (Listener.idle : Listener Empty Unit)
      ).session.keepsAlive := by decide +kernel
  have htime : (World.new (.standard .server) Listener.idle).KeepsTime (unheard ++ overdue) := by
    unfold KeepsTime
    decide +kernel
  have hsilent : ((World.new (.standard .server) Listener.idle).run
      (unheard ++ overdue)).findsSilence (.drive .tick) := by decide +kernel
  have hrecent : ((World.new (.standard .server) Listener.idle).run (unheard ++ overdue)).now.nanos
      ≤ ((World.new (.standard .server) Listener.idle).run unheard).now.nanos
        + ((World.new (.standard .server) Listener.idle).run
          (unheard ++ overdue)).session.options.keepaliveTimeout.nanos := by decide +kernel
  obtain ⟨hplay, -, -, -, hbefore⟩ := silent_before_timeout (.standard .server) Listener.idle
    (unheard ++ overdue) (.drive .tick) hkeeps htime hsilent
  obtain ⟨hraised, hnone⟩ := hbefore unheard overdue rfl hrecent
  exact ⟨hkeeps, htime, hsilent, hplay, hraised, hnone⟩

end World

/-! ## A peer that is not silent -/

/-- A moment at which bytes come in, and the peer takes some of those that it was sent. -/
structure Moment where
  /-- In milliseconds, on both clocks. -/
  time : Nat
  arrived : Bytes
  taken : Nat

namespace Moment

def surroundings (moment : Moment) : Surroundings :=
  ⟨.ofMillis moment.time, .ofMillis moment.time, 0⟩

def duplex (moment : Moment) (duplex : Duplex) : Duplex where
  incoming := { duplex.incoming with held := duplex.incoming.held ++ moment.arrived }
  outgoing := { duplex.outgoing with held := duplex.outgoing.held.drop moment.taken }

end Moment

namespace Session

/-- Takes turns until there is nothing to do but wait, and at most so many. -/
def goOn : (fuel : Nat) → Session E N × Duplex → Session E N × Duplex
  | 0, state => state
  | fuel + 1, (session, duplex) =>
    match session.turn duplex with
    | some next => goOn fuel next
    | none => (session, duplex)

/-- Takes its turns at one moment after another. -/
def live (state : Session E N × Duplex) (moments : List Moment) : Session E N × Duplex :=
  moments.foldl
    (fun state moment => goOn 16 (state.1.within moment.surroundings, moment.duplex state.2)) state

/-- A server in play, with a transport that holds two bytes for the peer. -/
def raised : Session Empty Unit × Duplex :=
  ((((new (.standard .server) .idle).runHook World.raising).attach (.standard .server)).2,
    ⟨.new 64, .new 2⟩)

/-- After fifteen seconds a probe is written and does not fit.  The peer answers eighteen seconds
later, and takes what it was sent after one more. -/
def slowly : List Moment :=
  [⟨0, [], 0⟩, ⟨15000, [], 0⟩, ⟨33000, [2, 0, 0], 0⟩]

/-- The stall is shorter than the limit, and the answer is complete in the transport for a second.
But the session does not read while the flush is stalled, and then it is its timer that it attends
to first: it is closed for the silence of its peer, with the answer unread. -/
theorem answer_unread :
    let waiting := live raised slowly
    let closed := live waiting [⟨34000, [], 2⟩]
    waiting.1.phase = .play ∧ ¬ waiting.1.isClosed ∧ waiting.1.options.keepaliveTimeout = .ofMillis 30000
      ∧ waiting.1.activity = .flushing ⟨.ofMillis 45000, false, [], .wait⟩
      ∧ (waiting.1.codec.decode waiting.2.incoming.held).1
        = .ok (some (.core (.serverboundKeepAlive 0)))
      ∧ closed.1.isClosed ∧ closed.1.reason? = some Reason.timedOut
      ∧ closed.2.incoming.held = waiting.2.incoming.held := by
  decide +kernel

end Session
end PhaseWire
