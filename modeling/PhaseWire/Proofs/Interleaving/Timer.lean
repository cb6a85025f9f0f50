import PhaseWire.Proofs.Interleaving.Ledger

/-
# Timers that cannot be set

A session sets its timer before it waits for the first time, even if it
will never look at it, and again at each tick.  There is no timer without
an interval, and none beyond the end of the clock.  `FailsTimer` lists the
moves at which a timer should be set and cannot be; a session has crashed
exactly if its run has such a move (`run_crashed_iff`).
-/

namespace PhaseWire

variable {E N : Type} [CustomPackets E]

namespace World

/-- The session waits for the first time as soon as it goes on. -/
inductive BeginsWait (world : World E N) : Prop
  /-- What had been kept left nothing to flush. -/
  | idle : world.jobs = [] → world.sequel? = some (.flush .firstWait) →
      world.session.outgoing = [] → world.session.tags = [] → BeginsWait world
  /-- What had been kept is flushed, or the flush has failed. -/
  | flushed : world.jobs = [] → world.sequel? = some (.goOn .firstWait) → BeginsWait world
  /-- The session was closed before it got its transport. -/
  | late : world.jobs = [] → world.sequel? = none → world.session.activity = .starting →
      world.session.lifecycle ≠ .preparing → BeginsWait world

/-- A timer is to be set, and cannot be. -/
inductive FailsTimer (world : World E N) : Move E N → Prop
  | first (pick : Pick) : world.BeginsWait → world.session.firstTick? = none →
      FailsTimer world (.drive pick)
  | tick : world.jobs = [] → world.sequel? = none → world.session.activity = .waiting →
      world.session.keepsAlive → world.session.nextTick ≤ world.session.surroundings.timer →
      world.session.tickAfter? = none → FailsTimer world (.drive .tick)

end World

namespace Session

variable (session : Session E N)

theorem proceed_crashed {duplex : Duplex} {afterwards : Afterwards}
    (h : (session.proceed duplex afterwards).1.activity = .crashed) :
    afterwards = .firstWait ∧ session.firstTick? = none := by
  cases afterwards with
  | firstWait =>
      rw [proceed, firstWait] at h
      split at h
      · cases h
      · rename_i htick
        exact ⟨rfl, htick⟩
  | wait => cases h
  | shutdown => cases h

theorem beginFlush_crashed {duplex : Duplex} {afterwards : Afterwards}
    (h : (session.beginFlush duplex afterwards).1.activity = .crashed) :
    session.outgoing = [] ∧ session.tags = [] ∧ afterwards = .firstWait
      ∧ session.firstTick? = none := by
  rw [beginFlush] at h
  split at h
  · rename_i hempty
    rw [Bool.and_eq_true, List.isEmpty_iff, List.isEmpty_iff] at hempty
    exact ⟨hempty.1, hempty.2, proceed_crashed { session with reading := true } h⟩
  · cases h

theorem firstWait_crashes {duplex : Duplex} (h : session.firstTick? = none) :
    (session.firstWait duplex).1.activity = .crashed := by
  rw [firstWait, h]
  rfl

end Session

namespace World

variable (world : World E N)

/-! ## What crashes cannot set its timer -/

theorem takeFrame_activity (incoming : Bytes) :
    (world.takeFrame incoming).session.activity = world.session.activity := by
  rw [takeFrame]
  split
  · rfl
  · rfl
  · dsimp only
    split
    · rfl
    · rfl

theorem takeInput_activity : world.takeInput.session.activity = world.session.activity := by
  rw [takeInput]
  split
  · exact takeFrame_activity _ _
  · rfl
  · exact takeFrame_activity _ _
  · rfl

theorem startTurn_crashed (hjobs : world.jobs = []) (hsequel : world.sequel? = none)
    (hactivity : world.session.activity = .starting)
    (h : world.startTurn.session.activity = .crashed) :
    world.BeginsWait ∧ world.session.firstTick? = none := by
  rw [startTurn] at h
  split at h
  · cases hactivity.symm.trans h
  · rename_i hlate
    have hcrashed : ((world.session.count Metrics.established).proceed world.duplex
      .firstWait).1.activity = .crashed := h
    exact ⟨.late hjobs hsequel hactivity hlate, (Session.proceed_crashed _ hcrashed).2⟩

theorem waitTurn_crashed (hjobs : world.jobs = []) (hsequel : world.sequel? = none)
    (hactivity : world.session.activity = .waiting) {pick : Pick}
    (h : (world.waitTurn pick).session.activity = .crashed) : world.FailsTimer (.drive pick) := by
  have hgoing : ∀ {activity : Activity}, activity = world.session.activity →
      activity ≠ .crashed := by
    rintro activity rfl hcrashed
    cases hactivity.symm.trans hcrashed
  cases pick with
  | stop =>
      rw [waitTurn] at h
      split at h
      · exact absurd h (hgoing rfl)
      · exact absurd h (hgoing rfl)
  | command =>
      rw [waitTurn] at h
      split at h
      · rename_i command channel hchannel
        have hworked := { world.session with channel }.runJob_worked .new (.execute command)
        exact absurd h (hgoing hworked.keeps.activity_eq)
      · exact absurd h (hgoing rfl)
  | tick =>
      rw [waitTurn] at h
      split at h
      · rename_i hdue
        rw [Bool.and_eq_true, decide_eq_true_eq] at hdue
        split at h
        · exact absurd h (hgoing rfl)
        · rename_i htick
          exact .tick hjobs hsequel hactivity hdue.1 hdue.2 htick
      · exact absurd h (hgoing rfl)
  | input =>
      rw [waitTurn] at h
      split at h
      · exact absurd h (hgoing rfl)
      · split at h
        · exact absurd h (hgoing (world.takeFrame_activity []))
        · exact absurd h (hgoing world.takeInput_activity)

theorem flushTurn_activity (flush : Flush) (pick : Pick) :
    (world.flushTurn flush pick).session.activity = world.session.activity := by
  have hwrite : (world.flushWrite flush).session.activity = world.session.activity := by
    rw [flushWrite]
    split
    · split
      · rfl
      · rfl
      · rfl
    · split
      · rfl
      · rfl
  cases pick with
  | stop =>
      rw [flushTurn]
      split
      · rfl
      · rfl
  | tick =>
      rw [flushTurn]
      split
      · rw [settleLate]
        split
        · rfl
        · rfl
      · rfl
  | command => exact hwrite
  | input => exact hwrite

theorem shutdownTurn_crashed {deadline : Instant} {pick : Pick}
    (h : (world.shutdownTurn deadline pick).session.activity = .crashed) :
    world.session.activity = .crashed := by
  unfold shutdownTurn at h
  split at h
  · split at h
    · cases h
    · exact h
  · split at h
    · split at h
      · exact h
      · cases h
    · split at h
      · cases h
      · exact h

theorem conclude_crashed (hjobs : world.jobs = []) {sequel : Sequel}
    (hsequel : world.sequel? = some sequel)
    (h : (world.conclude sequel).session.activity = .crashed) :
    world.session.activity = .crashed ∨ world.BeginsWait ∧ world.session.firstTick? = none := by
  cases sequel with
  | flush afterwards =>
      obtain ⟨houtgoing, htags, rfl, htick⟩ := world.session.beginFlush_crashed h
      exact .inr ⟨.idle hjobs hsequel houtgoing htags, htick⟩
  | goOn afterwards =>
      obtain ⟨rfl, htick⟩ := { world.session with reading := true }.proceed_crashed h
      exact .inr ⟨.flushed hjobs hsequel, htick⟩
  | dropLeft =>
      rw [conclude] at h
      split at h
      · rename_i command channel hchannel
        have hsame := congrArg Books.activity
          (Session.books_abandon { world.session with channel } command)
        exact .inl (hsame.symm.trans h)
      · obtain ⟨-, -, hfirst, -⟩ := world.session.beginFlush_crashed h
        cases hfirst

theorem turn_crashed (hjobs : world.jobs = []) (hsequel : world.sequel? = none) {pick : Pick}
    (h : (world.turn pick).session.activity = .crashed) :
    world.session.activity = .crashed ∨ world.FailsTimer (.drive pick) := by
  rw [turn] at h
  split at h
  · exact .inl h
  · exact .inl h
  · exact .inl h
  · rename_i hactivity
    obtain ⟨hbegins, htick⟩ := world.startTurn_crashed hjobs hsequel hactivity h
    exact .inr (.first pick hbegins htick)
  · rename_i hactivity
    exact .inr (world.waitTurn_crashed hjobs hsequel hactivity h)
  · rename_i flush hactivity
    exact .inl ((world.flushTurn_activity flush pick).symm.trans h)
  · exact .inl (world.shutdownTurn_crashed h)

theorem step_crashed (move : Move E N) (h : (world.step move).session.activity = .crashed) :
    world.session.activity = .crashed ∨ world.FailsTimer move := by
  cases move with
  | spawn program => exact .inl h
  | thread index =>
      rw [step, runThread] at h
      split at h
      · rename_i errand rest hthread
        have hworked := world.session.runJob_worked .new (.errand errand)
        exact .inl (hworked.keeps.activity_eq.symm.trans h)
      · exact .inl h
  | attach options duplex =>
      rw [step, Session.attach] at h
      split at h
      · rename_i hattach
        split at hattach
        · cases hattach
          cases h
        · cases hattach
      · exact .inl h
  | surround surroundings => exact .inl h
  | transport duplex => exact .inl h
  | drive pick =>
      rw [step, drive] at h
      split at h
      · rename_i job rest hjobs
        exact .inl ((world.session.runJob_worked .new job).keeps.activity_eq.symm.trans h)
      · rename_i sequel hjobs hsequel
        rcases world.conclude_crashed hjobs hsequel h with hcrashed | ⟨hbegins, htick⟩
        · exact .inl hcrashed
        · exact .inr (.first pick hbegins htick)
      · rename_i hjobs hsequel
        exact world.turn_crashed hjobs hsequel h

/-! ## What cannot set its timer crashes -/

theorem FailsTimer.crashes {world : World E N} {move : Move E N} (h : world.FailsTimer move) :
    (world.step move).session.activity = .crashed := by
  cases h with
  | first pick hbegins htick =>
      cases hbegins with
      | idle hjobs hsequel houtgoing htags =>
          simp only [step, drive, hjobs, hsequel, conclude, Session.beginFlush, houtgoing, htags]
          exact Session.firstWait_crashes _ htick
      | flushed hjobs hsequel =>
          simp only [step, drive, hjobs, hsequel, conclude]
          exact { world.session with reading := true }.firstWait_crashes htick
      | late hjobs hsequel hstarting hlate =>
          simp only [step, drive, hjobs, hsequel, turn, hstarting, startTurn]
          split
          · rename_i hpreparing
            exact absurd hpreparing hlate
          · exact (world.session.count Metrics.established).firstWait_crashes htick
  | tick hjobs hsequel hwaiting hkeeps hdue htick =>
      simp only [step, drive, hjobs, hsequel, turn, hwaiting, waitTurn, hkeeps, hdue, htick]
      rfl

theorem stays_crashed (hpaced : world.ledger.Paced) (move : Move E N)
    (h : world.session.activity = .crashed) : (world.step move).session.activity = .crashed := by
  cases move with
  | spawn program => exact h
  | thread index =>
      rw [step, runThread]
      split
      · rename_i errand rest hthread
        exact (world.session.runJob_worked .new (.errand errand)).keeps.activity_eq.trans h
      · exact h
  | attach options duplex =>
      have hbegun : world.session.activity ≠ .detached := by
        rw [h]
        exact Activity.noConfusion
      rw [step, Session.attach, if_neg hbegun]
      exact h
  | surround surroundings => exact h
  | transport duplex => exact h
  | drive pick =>
      have hsequel : world.sequel? = none := hpaced.resting h True.intro
      have hjobs : world.jobs = [] := hpaced.idle hsequel
      simp only [step, drive, hjobs, hsequel, turn, h]

/-! ## Runs -/

/-- A session has crashed exactly if there was a timer that it could not set. -/
theorem run_crashed_iff (start : World E N) (hpaced : start.ledger.Paced)
    (hstart : start.session.activity ≠ .crashed) (moves : List (Move E N)) :
    (start.run moves).session.activity = .crashed
      ↔ ∃ before move after, moves = before ++ move :: after
          ∧ (start.run before).FailsTimer move := by
  constructor
  · -- The first move that crashes is looked for from the start, so the start is general.
    induction moves generalizing start with
    | nil => exact fun h => absurd h hstart
    | cons move moves ih =>
        intro h
        by_cases hnext : (start.step move).session.activity = .crashed
        · exact ⟨[], move, moves, rfl, (start.step_crashed move hnext).resolve_left hstart⟩
        · obtain ⟨before, failing, after, hmoves, hfails⟩ :=
            ih (start.step move) (hpaced.entry (start.step_entry move)) hnext h
          exact ⟨move :: before, failing, after, congrArg (move :: ·) hmoves, hfails⟩
  · rintro ⟨before, move, after, rfl, hfails⟩
    have hbefore : (start.run before).ledger.Paced :=
      run_preserves (P := fun world : World E N => world.ledger.Paced) before
        (fun move _ world h => h.entry (world.step_entry move)) start hpaced
    rw [run_append]
    refine (run_preserves (P := fun world : World E N =>
      world.ledger.Paced ∧ world.session.activity = .crashed) after
      (fun move _ world h => ⟨h.1.entry (world.step_entry move), world.stays_crashed h.1 move h.2⟩)
      _ ⟨hbefore.entry ((start.run before).step_entry move), hfails.crashes⟩).2

/-- No timer of a run fails. -/
def SetsTimers (world : World E N) (moves : List (Move E N)) : Prop :=
  ∀ before move after, moves = before ++ move :: after → ¬ (world.run before).FailsTimer move

/-- A session whose timers can be set does not crash, and no other does without a crash. -/
theorem setsTimers_iff (registry : Registry E) (listener : Listener E N) (moves : List (Move E N)) :
    (World.new registry listener).SetsTimers moves
      ↔ ((World.new registry listener).run moves).session.activity ≠ .crashed := by
  have hcrashed := run_crashed_iff _ (paced_new registry listener) Activity.noConfusion moves
  constructor
  · intro h hcrash
    obtain ⟨before, move, after, hmoves, hfails⟩ := hcrashed.mp hcrash
    exact h before move after hmoves hfails
  · intro h before move after hmoves hfails
    exact h (hcrashed.mpr ⟨before, move, after, hmoves, hfails⟩)

end World
end PhaseWire
