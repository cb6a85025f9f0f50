import PhaseWire.Proofs.Interleaving.Commands
import PhaseWire.Proofs.Interleaving.Fate

/-
# A session is closed once

Only the attempt that finds the session open decides anything, and what it
decides stands (`IsDecided`).  So whoever tries to close a session, from
whatever thread or callback, one of them wins, and the listener is told
once, which an errand of the winner does (`closed_once`).
-/

namespace PhaseWire

variable {E N : Type}

/-! ## The decision -/

/-- Nothing was decided while the session is open.  Once it is closed, one attempt has decided
everything. -/
structure IsDecided (fate : Fate E N) (telling : List String) (winners : List Attempt) : Prop where
  undecided : fate.lifecycle ≠ .closed →
    winners = [] ∧ fate.reason? = none ∧ (fate.told ++ telling).Perm []
  decided : fate.lifecycle = .closed → ∃ winner, winners = [winner]
    ∧ fate.reason? = some winner.reason
    ∧ (fate.told ++ telling).Perm (if winner.graceful then [] else [winner.reason])

/-- The listener of a closed session is told one reason at most, so there is no order to speak of. -/
theorem IsDecided.told_of_closed {fate : Fate E N} {telling : List String} {winners : List Attempt}
    (h : IsDecided fate telling winners) (hclosed : fate.lifecycle = .closed) :
    ∃ winner : Attempt, winners = [winner] ∧ fate.reason? = some winner.reason
      ∧ fate.told ++ telling = if winner.graceful then [] else [winner.reason] := by
  obtain ⟨winner, hwinners, hreason, htold⟩ := h.decided hclosed
  refine ⟨winner, hwinners, hreason, ?_⟩
  split
  · rename_i hgraceful
    rw [if_pos hgraceful] at htold
    exact htold.eq_nil
  · rename_i hnotice
    rw [if_neg hnotice] at htold
    exact List.perm_singleton.mp htold

theorem IsDecided.perm {fate next : Fate E N} {telling left : List String} {winners : List Attempt}
    (h : IsDecided fate telling winners) (hlifecycle : next.lifecycle = fate.lifecycle)
    (hreason : next.reason? = fate.reason?)
    (htold : (next.told ++ left).Perm (fate.told ++ telling)) : IsDecided next left winners where
  undecided hopen := by
    rw [hlifecycle] at hopen
    obtain ⟨hwinners, hnone, htelling⟩ := h.undecided hopen
    exact ⟨hwinners, hreason.trans hnone, htold.trans htelling⟩
  decided hclosed := by
    rw [hlifecycle] at hclosed
    obtain ⟨winner, hwinners, hsome, htelling⟩ := h.decided hclosed
    exact ⟨winner, hwinners, hreason.trans hsome, htold.trans htelling⟩

theorem IsDecided.turned {fate next : Fate E N} {telling left : List String}
    {attempt? : Option Attempt} {winners : List Attempt} (h : IsDecided fate telling winners)
    (hturned : Turned fate telling attempt? next left) :
    IsDecided next left (winners ++ attempt?.toList.filter Attempt.won) := by
  cases hturned with
  | face hfaced hleft =>
      cases hfaced with
      | same =>
          rw [List.append_nil] at hleft
          rw [Option.toList_none, List.filter_nil, List.append_nil]
          exact h.perm rfl rfl (hleft.append_left fate.told)
      | lost reason graceful hclosed =>
          rw [List.append_nil] at hleft
          have hnobody : (some (Attempt.mk reason graceful false)).toList.filter Attempt.won = [] :=
            rfl
          rw [hnobody, List.append_nil]
          exact h.perm rfl rfl (hleft.append_left fate.told)
      | won reason graceful hopen =>
          obtain ⟨hwinners, -, htelling⟩ := h.undecided hopen
          refine ⟨fun hstays => (hstays rfl).elim, fun _ => ?_⟩
          refine ⟨⟨reason, graceful, true⟩, ?_, rfl, ?_⟩
          · rw [hwinners]
            rfl
          · obtain ⟨htold, hnone⟩ := List.append_eq_nil_iff.mp htelling.eq_nil
            rw [hnone] at hleft
            rw [show fate.told ++ left = left by rw [htold, List.nil_append]]
            exact hleft
  | tell htelling =>
      rw [Option.toList_none, List.filter_nil, List.append_nil]
      refine h.perm rfl rfl ?_
      rw [List.append_assoc]
      exact htelling.symm.append_left fate.told
  | start hpreparing =>
      have hopen : fate.lifecycle ≠ .closed := by
        rw [hpreparing]
        exact Lifecycle.noConfusion
      rw [Option.toList_none, List.filter_nil, List.append_nil]
      refine ⟨fun _ => h.undecided hopen, fun hclosed => ?_⟩
      cases hclosed

variable [CustomPackets E]

theorem Ledger.Entry.attached {ledger next : Ledger E N}
    (h : ledger.Entry next) (hnext : next.books.activity = .detached) :
    ledger.books.activity = .detached := by
  cases h with
  | stay => exact hnext
  | call hhandled hdropping => exact hhandled.keeps.activity_eq.symm.trans hnext
  | abandon hdropping => exact hnext
  | attach hdetached => exact hdetached
  | job hjobs hworked => exact hworked.keeps.activity_eq.symm.trans hnext
  | start hidle hstarting hpreparing => exact hnext
  | execute hidle hwaiting hchannel hworked => exact hworked.keeps.activity_eq.symm.trans hnext
  | assign hidle hwaiting hjobs => exact hnext
  | stop reason hidle hwaiting hclosed => exact hnext
  | hand count => exact hnext
  | settleDone hidle hflushing hempty => exact hnext
  | settleFailed fault hidle hflushing hdropped => exact hnext
  | flush hdue htags hafterwards => cases hnext
  | proceed hthrough hleads htimer =>
      rcases hleads.cases with ⟨rfl, -⟩ | ⟨⟨deadline, rfl⟩, -⟩
      · cases hnext
      · cases hnext
  | crash hsets => cases hnext
  | drop hjobs hsequel hchannel => exact hnext
  | finish hidle hshutting => cases hnext

/-! ## All schedules -/

namespace World

/-- The attempts to close that a run makes, in the order of the lock. -/
def attempts (world : World E N) (moves : List (Move E N)) : List Attempt :=
  world.gather attempt? moves

/-- The answer to somebody who brings a transport. -/
def attachment? (world : World E N) : Move E N → Option (Except Fault Unit)
  | .attach options _ => some (world.session.attach options).1
  | _ => none

/-- The answers to those who bring a transport. -/
def attachments (world : World E N) (moves : List (Move E N)) : List (Except Fault Unit) :=
  world.gather attachment? moves

def told (world : World E N) : List String :=
  world.session.events.filterMap Event.closed?

theorem run_leadsTo (moves : List (Move E N)) (world : World E N) :
    world.session.lifecycle.LeadsTo (world.run moves).session.lifecycle := by
  refine run_preserves
    (P := fun next : World E N => world.session.lifecycle.LeadsTo next.session.lifecycle) moves ?_
    world (.stay _)
  intro move hmove next h
  exact h.trans (next.step_turned move).leadsTo

theorem run_closed (moves : List (Move E N)) {world : World E N}
    (h : world.session.lifecycle = .closed) : (world.run moves).session.lifecycle = .closed := by
  have hleads := run_leadsTo moves world
  rw [h] at hleads
  exact hleads.eq_closed

/-- One attempt decides, wherever nothing was decided before the run. -/
theorem decided_of_start {world : World E N}
    (h : IsDecided world.session.fate world.telling []) (moves : List (Move E N)) :
    IsDecided (world.run moves).session.fate (world.run moves).telling
      ((world.attempts moves).filter Attempt.won) := by
  refine gather_preserves attempt? (P := fun world seen =>
    IsDecided world.session.fate world.telling (seen.filter Attempt.won)) ?_ moves world [] h
  intro move world seen h
  rw [List.filter_append]
  exact h.turned (world.step_turned move)

theorem decided_new (registry : Registry E) (listener : Listener E N) :
    IsDecided (World.new registry listener).session.fate (World.new registry listener).telling [] :=
  ⟨fun _ => ⟨rfl, rfl, .nil⟩, fun hclosed => nomatch hclosed⟩

theorem run_decided (registry : Registry E) (listener : Listener E N) (moves : List (Move E N)) :
    IsDecided ((World.new registry listener).run moves).session.fate
      ((World.new registry listener).run moves).telling
      (((World.new registry listener).attempts moves).filter Attempt.won) :=
  decided_of_start (decided_new registry listener) moves

/-- The activity of a session that a move leaves without a transport. -/
theorem step_detached (world : World E N) (move : Move E N)
    (h : (world.step move).session.activity = .detached) :
    world.session.activity = .detached :=
  (world.step_entry move).attached h

theorem run_attached (registry : Registry E) (listener : Listener E N) (moves : List (Move E N)) :
    ((World.new registry listener).attachments moves).countP Except.isOk ≤ 1 := by
  have hrun := gather_preserves attachment? (P := fun (world : World E N) seen =>
    seen.countP Except.isOk ≤ 1
      ∧ (world.session.activity = .detached → seen.countP Except.isOk = 0)) ?_ moves
    (World.new registry listener) [] ⟨Nat.zero_le 1, fun _ => rfl⟩
  · exact hrun.1
  rintro move world seen ⟨hone, hnone⟩
  have hback := world.step_detached move
  cases move with
  | attach options duplex =>
      by_cases hdetached : world.session.activity = .detached
      · have hfirst : (attachment? world (.attach options duplex)).toList = [.ok ()] := by
          rw [attachment?, Session.attach, if_pos hdetached]
          rfl
        have hstep : (world.step (.attach options duplex)).session.activity = .starting := by
          rw [step, Session.attach, if_pos hdetached]
        rw [hfirst, List.countP_append, hnone hdetached, hstep]
        exact ⟨Nat.le_refl 1, Activity.noConfusion⟩
      · have hlate : (attachment? world (.attach options duplex)).toList
            = [.error (.custom Reason.alreadyStarted)] := by
          rw [attachment?, Session.attach, if_neg hdetached]
          rfl
        rw [hlate, List.countP_append]
        exact ⟨hone, fun h => (hdetached (hback h)).elim⟩
  | _ =>
      rw [show (attachment? world _).toList = [] from rfl, List.append_nil]
      exact ⟨hone, fun h => hnone (hback h)⟩

/-- Under any schedule a session moves on in its lifecycle and never leaves the last of it.  While
it is open no attempt to close it has won, it has no reason, and its listener was told nothing.
When it is closed one attempt has won and no other will; the session has the reason of that attempt
and keeps it; and the listener is told that reason once, by an errand that is done or is under way,
unless the attempt was graceful.  Only a session that prepares has commands in its queue, and of all
transports that it is brought it takes one at most. -/
theorem closed_once (registry : Registry E) (listener : Listener E N)
    (moves more : List (Move E N)) :
    let start := World.new registry listener
    let world := start.run moves
    world.session.lifecycle.LeadsTo (world.run more).session.lifecycle
      ∧ (¬ world.session.isClosed → (start.attempts moves).filter Attempt.won = []
          ∧ world.session.reason? = none ∧ world.told ++ world.telling = [])
      ∧ (world.session.isClosed → ∃ winner : Attempt,
          (start.attempts moves).filter Attempt.won = [winner]
          ∧ (start.attempts (moves ++ more)).filter Attempt.won = [winner]
          ∧ world.session.reason? = some winner.reason
          ∧ (world.run more).session.reason? = some winner.reason
          ∧ world.told ++ world.telling = if winner.graceful then [] else [winner.reason])
      ∧ (world.session.lifecycle ≠ .preparing → world.session.queue = [])
      ∧ (start.attachments moves).countP Except.isOk ≤ 1 := by
  intro start world
  have hdecided : IsDecided world.session.fate world.telling _ :=
    run_decided registry listener moves
  have hlater := run_decided registry listener (moves ++ more)
  have hattempts : (start.attempts (moves ++ more)).filter Attempt.won
      = (start.attempts moves).filter Attempt.won ++ (world.attempts more).filter Attempt.won := by
    rw [attempts, gather_append, List.filter_append]
    rfl
  rw [run_append, hattempts] at hlater
  obtain ⟨-, _, _, _, haccounted⟩ := run_accounted registry listener moves
  refine ⟨run_leadsTo more world, ?_, ?_, haccounted.kept, run_attached registry listener moves⟩
  · intro hopen
    obtain ⟨hwinners, hreason, htold⟩ :=
      hdecided.undecided fun hclosed => hopen (decide_eq_true hclosed)
    exact ⟨hwinners, hreason, htold.eq_nil⟩
  · intro hclosed
    have hclosed : world.session.lifecycle = .closed := of_decide_eq_true hclosed
    obtain ⟨winner, hwinners, hreason, htold⟩ := hdecided.told_of_closed hclosed
    have hstays : (world.run more).session.lifecycle = .closed := run_closed more hclosed
    -- the winner so far is the first of all winners, and there is only one
    obtain ⟨other, hothers, hsame, -⟩ := hlater.decided hstays
    rw [hwinners, List.singleton_append] at hothers
    obtain ⟨rfl, hnone⟩ := List.cons.inj hothers
    refine ⟨winner, hwinners, ?_, hreason, hsame, htold⟩
    rw [hattempts, hwinners, hnone]
    rfl

end World
end PhaseWire
