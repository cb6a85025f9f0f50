import PhaseWire.Proofs.Interleaving.Closing
import PhaseWire.Proofs.Interleaving.Completions
import PhaseWire.Proofs.Interleaving.Gauge

/-
# What a session leaves behind

A session counts itself among the connections when it begins, and takes
itself off the count when it gives up its transport in order; nothing in
between touches these two counters, so they say how far the session is
(`IsCounted`).

There is one way out that leads past all this: a timer that cannot be set.
Without an interval there is no timer, so what has passed the place where
the first one is set has an interval (`IsPast`); but even with one a
session crashes if the clock cannot show when the timer goes off.
-/

namespace PhaseWire

variable {E N : Type} [CustomPackets E]

/-! ## How far a session is -/

theorem Activity.isOver_iff {activity : Activity} :
    activity.isOver ↔ activity = .finished ∨ activity = .crashed := by
  cases activity with
  | finished => exact ⟨fun _ => .inl rfl, fun _ => rfl⟩
  | crashed => exact ⟨fun _ => .inr rfl, fun _ => rfl⟩
  | _ =>
      refine ⟨nofun, ?_⟩
      rintro (h | h)
      · cases h
      · cases h

theorem Handled.channel_of_over {books next : Books E} {dropped : List (Command E)}
    (h : Handled books dropped next) (hover : books.activity.isOver) :
    next.channel = books.channel := by
  cases h with
  | sent _ _ hgoing =>
      rw [hgoing] at hover
      cases hover
  | _ => rfl

/-- What a session has done with its transport. -/
inductive Tenure
  /-- Nothing so far. -/
  | fresh
  | underWay
  /-- It was given up in order. -/
  | done
  deriving DecidableEq, Repr

/-- The counters of a session that found them like this. -/
def Tenure.metrics (found : Metrics) : Tenure → Metrics
  | fresh => found
  | underWay => found.established
  | done => found.established.ended

/-- The session is beyond its start and has not given up its transport in order. -/
def Activity.IsUnderWay : Activity → Prop
  | detached | starting | finished => False
  | _ => True

/-- The timer was set. -/
def Activity.IsPast : Activity → Prop
  | waiting | shuttingDown _ | finished => True
  | flushing flush => flush.afterwards ≠ .firstWait
  | _ => False

/-- The timer was set before it comes to this. -/
def Sequel.IsPast : Sequel → Prop
  | flush afterwards | goOn afterwards => afterwards ≠ .firstWait
  | dropLeft => True

theorem Afterwards.LeadsTo.underWay {afterwards : Afterwards} {activity : Activity}
    (h : afterwards.LeadsTo activity) : activity.IsUnderWay := by
  rcases h.cases with ⟨rfl, -⟩ | ⟨⟨deadline, rfl⟩, -⟩
  · exact True.intro
  · exact True.intro

namespace Session

variable (session : Session E N)

theorem proceed_underWay (duplex : Duplex) (afterwards : Afterwards) :
    (session.proceed duplex afterwards).1.activity.IsUnderWay := by
  rcases session.proceed_books duplex afterwards with
    ⟨activity, hleads, -, hbooks⟩ | ⟨-, hbooks⟩
  · have hactivity : (session.proceed duplex afterwards).1.activity = activity :=
      congrArg Books.activity hbooks
    rw [hactivity]
    exact hleads.underWay
  · have hactivity : (session.proceed duplex afterwards).1.activity = .crashed :=
      congrArg Books.activity hbooks
    rw [hactivity]
    exact True.intro

theorem beginFlush_underWay (duplex : Duplex) (afterwards : Afterwards) :
    (session.beginFlush duplex afterwards).1.activity.IsUnderWay := by
  rw [beginFlush]
  split
  · exact proceed_underWay _ duplex afterwards
  · exact True.intro

end Session

namespace Ledger

variable {ledger next : Ledger E N}

def tenure (ledger : Ledger E N) : Tenure :=
  match ledger.books.activity with
  | .detached => .fresh
  | .starting => if ledger.sequel? = none then .fresh else .underWay
  | .finished => .done
  | _ => .underWay

/-- The session has set its timer. -/
def IsPast (ledger : Ledger E N) : Prop :=
  match ledger.sequel? with
  | some sequel => sequel.IsPast
  | none => ledger.books.activity.IsPast

theorem tenure_congr (hactivity : next.books.activity = ledger.books.activity)
    (hsequel : next.sequel? = ledger.sequel?) : next.tenure = ledger.tenure := by
  rw [tenure, tenure, hactivity, hsequel]

theorem tenure_of_underWay {activity : Activity} (hactivity : ledger.books.activity = activity)
    (h : activity.IsUnderWay) : ledger.tenure = .underWay := by
  rw [tenure, hactivity]
  cases activity with
  | detached => exact h.elim
  | starting => exact h.elim
  | finished => exact h.elim
  | _ => rfl

theorem Paced.tenure_of_sequel (h : ledger.Paced) {sequel : Sequel}
    (hsequel : ledger.sequel? = some sequel) : ledger.tenure = .underWay := by
  have hawake := h.awake hsequel
  rw [tenure]
  cases hactivity : ledger.books.activity with
  | detached => exact (Activity.ne_of_awake hawake .detached True.intro hactivity).elim
  | starting =>
      rw [hsequel]
      rfl
  | finished => exact (Activity.ne_of_awake hawake .finished True.intro hactivity).elim
  | _ => rfl

theorem past_congr (hactivity : next.books.activity = ledger.books.activity)
    (hsequel : next.sequel? = ledger.sequel?) : next.IsPast ↔ ledger.IsPast := by
  rw [IsPast, IsPast, hactivity, hsequel]

theorem past_of_sequel {sequel : Sequel} (hsequel : ledger.sequel? = some sequel)
    (hpast : sequel.IsPast) : ledger.IsPast := by
  rw [IsPast, hsequel]
  exact hpast

theorem past_of_activity {activity : Activity} (hsequel : ledger.sequel? = none)
    (hactivity : ledger.books.activity = activity) (hpast : activity.IsPast) : ledger.IsPast := by
  rw [IsPast, hsequel, hactivity]
  exact hpast

theorem past_of_due {afterwards : Afterwards} (hdue : ledger.IsDue afterwards)
    (hlater : afterwards ≠ .firstWait) : ledger.IsPast := by
  obtain ⟨-, hsequel | ⟨hsequel, -, -⟩⟩ := hdue
  · exact past_of_sequel hsequel hlater
  · exact past_of_sequel hsequel True.intro

theorem past_of_through {afterwards : Afterwards} (hthrough : ledger.IsThrough afterwards)
    (hlater : afterwards ≠ .firstWait) : ledger.IsPast := by
  rcases hthrough with ⟨hdue, -⟩ | ⟨-, hsequel⟩ | ⟨-, -, -, hfirst⟩
  · exact past_of_due hdue hlater
  · exact past_of_sequel hsequel hlater
  · exact (hlater hfirst).elim

theorem Paced.tenure_of_due (h : ledger.Paced) {afterwards : Afterwards}
    (hdue : ledger.IsDue afterwards) : ledger.tenure = .underWay := by
  obtain ⟨-, hsequel | ⟨hsequel, -, -⟩⟩ := hdue
  · exact h.tenure_of_sequel hsequel
  · exact h.tenure_of_sequel hsequel

/-- What the place of a session says about the rest. -/
structure IsTidy (ledger : Ledger E N) : Prop where
  begun : ledger.tenure ≠ .fresh → ledger.books.lifecycle ≠ .preparing
  timed : ledger.IsPast → ledger.books.options.keepaliveInterval.nanos ≠ 0
  emptied : ledger.books.activity = .crashed → ledger.books.channel = []

theorem IsTidy.begun_underWay (h : ledger.IsTidy) (htenure : ledger.tenure = .underWay) :
    ledger.books.lifecycle ≠ .preparing := by
  refine h.begun ?_
  rw [htenure]
  exact Tenure.noConfusion

theorem IsTidy.keeps (h : ledger.IsTidy) (hbooks : ledger.books.Keeps next.books)
    (hsequel : next.sequel? = ledger.sequel?)
    (hchannel : ledger.books.activity = .crashed → next.books.channel = ledger.books.channel) :
    next.IsTidy where
  begun hbegun := by
    rw [tenure_congr hbooks.activity_eq hsequel] at hbegun
    rcases hbooks.lifecycle_cases with hsame | hclosed
    · rw [hsame]
      exact h.begun hbegun
    · rw [hclosed]
      exact Lifecycle.noConfusion
  timed hpast := by
    rw [hbooks.options_eq]
    exact h.timed ((past_congr hbooks.activity_eq hsequel).mp hpast)
  emptied hcrashed := by
    rw [hbooks.activity_eq] at hcrashed
    rw [hchannel hcrashed]
    exact h.emptied hcrashed

theorem IsTidy.onward (h : ledger.IsTidy) (htenure : ledger.tenure = .underWay)
    (hlifecycle : next.books.lifecycle = ledger.books.lifecycle
      ∨ next.books.lifecycle = .closed)
    (hoptions : next.books.options = ledger.books.options) (hpast : next.IsPast → ledger.IsPast)
    {activity : Activity} (hactivity : next.books.activity = activity)
    (hgoing : activity ≠ .crashed) : next.IsTidy where
  begun _ := by
    rcases hlifecycle with hsame | hclosed
    · rw [hsame]
      exact h.begun_underWay htenure
    · rw [hclosed]
      exact Lifecycle.noConfusion
  timed hnext := by
    rw [hoptions]
    exact h.timed (hpast hnext)
  emptied hcrashed := (hgoing (hactivity.symm.trans hcrashed)).elim

/-- A session that waits has set its timer, whatever it turns to. -/
theorem IsTidy.of_waiting (h : ledger.IsTidy) (hidle : ledger.IsIdle)
    (hwaiting : ledger.books.activity = .waiting) (hkeeps : ledger.books.Keeps next.books) :
    next.IsTidy := by
  have hpast := past_of_activity hidle.2 hwaiting True.intro
  exact h.onward (tenure_of_underWay hwaiting True.intro) hkeeps.lifecycle_cases hkeeps.options_eq
    (fun _ => hpast) (hkeeps.activity_eq.trans hwaiting) Activity.noConfusion

/-- Where nothing is left to flush, the session is no more as it was before its start. -/
theorem IsTidy.lifecycle_of_through (h : ledger.IsTidy) (hpaced : ledger.Paced)
    {afterwards : Afterwards} (hthrough : ledger.IsThrough afterwards) :
    ledger.books.lifecycle ≠ .preparing := by
  rcases hthrough with ⟨hdue, -⟩ | ⟨-, hsequel⟩ | ⟨-, -, hlate, -⟩
  · exact h.begun_underWay (hpaced.tenure_of_due hdue)
  · exact h.begun_underWay (hpaced.tenure_of_sequel hsequel)
  · exact hlate

theorem IsTidy.entry (h : ledger.IsTidy) (hpaced : ledger.Paced)
    (hentry : ledger.Entry next) : next.IsTidy := by
  cases hentry with
  | stay => exact h
  | call hhandled hdropping =>
      refine h.keeps hhandled.keeps rfl fun hcrashed => hhandled.channel_of_over ?_
      rw [hcrashed]
      rfl
  | abandon hdropping => exact h.keeps ⟨rfl, rfl, rfl, .inl rfl⟩ rfl fun _ => rfl
  | attach hdetached =>
      have hsequel := hpaced.resting hdetached True.intro
      refine ⟨fun hbegun => ?_, fun hpast => ?_, Activity.noConfusion⟩
      · exact (hbegun (if_pos hsequel)).elim
      · rw [IsPast] at hpast
        dsimp only at hpast
        rw [hsequel] at hpast
        exact hpast.elim
  | job hjobs hworked =>
      refine h.keeps hworked.keeps rfl fun hcrashed => ?_
      have hnone := hpaced.idle (hpaced.resting hcrashed True.intro)
      rw [hjobs] at hnone
      cases hnone
  | start hidle hstarting hpreparing =>
      refine ⟨fun _ => Lifecycle.noConfusion, fun hpast => (hpast rfl).elim, fun hcrashed => ?_⟩
      cases hstarting.symm.trans hcrashed
  | execute hidle hwaiting hchannel hworked =>
      obtain ⟨hactivity, hoptions, hregistry, hlifecycle⟩ := hworked.keeps
      exact h.of_waiting hidle hwaiting ⟨hactivity, hoptions, hregistry, hlifecycle⟩
  | assign hidle hwaiting hjobs => exact h.of_waiting hidle hwaiting (.refl _)
  | stop reason hidle hwaiting hclosed => exact h.of_waiting hidle hwaiting (.refl _)
  | hand count => exact h.keeps ⟨rfl, rfl, rfl, .inl rfl⟩ rfl fun _ => rfl
  | settleDone hidle hflushing hempty =>
      have htenure := tenure_of_underWay hflushing True.intro
      exact h.onward htenure (.inl rfl) rfl (past_of_activity hidle.2 hflushing) hflushing
        Activity.noConfusion
  | settleFailed fault hidle hflushing hdropped =>
      have htenure := tenure_of_underWay hflushing True.intro
      exact h.onward htenure (.inl rfl) rfl (past_of_activity hidle.2 hflushing) hflushing
        Activity.noConfusion
  | flush hdue htags hafterwards =>
      refine h.onward (hpaced.tenure_of_due hdue) (.inl rfl) rfl (fun hpast => ?_) rfl
        Activity.noConfusion
      refine past_of_due hdue fun hfirst => ?_
      exact hpast (hafterwards.trans hfirst)
  | @proceed afterwards activity hthrough hleads htimer =>
      refine ⟨fun _ => h.lifecycle_of_through hpaced hthrough, fun _ => ?_, fun hcrashed => ?_⟩
      · by_cases hfirst : afterwards = .firstWait
        · exact htimer hfirst
        · exact h.timed (past_of_through hthrough hfirst)
      · exact (hleads.ne_crashed hcrashed).elim
  | crash hsets =>
      refine ⟨fun _ => ?_, False.elim, fun _ => rfl⟩
      rcases hsets with hthrough | ⟨hidle, hwaiting⟩
      · exact h.lifecycle_of_through hpaced hthrough
      · exact h.begun_underWay (tenure_of_underWay hwaiting True.intro)
  | drop hjobs hsequel hchannel =>
      have hgoing := Activity.ne_of_awake (hpaced.awake hsequel) .crashed True.intro
      exact h.keeps ⟨rfl, rfl, rfl, .inl rfl⟩ rfl fun hcrashed => (hgoing hcrashed).elim
  | finish hidle hshutting =>
      have htenure := tenure_of_underWay hshutting True.intro
      have hpast := past_of_activity hidle.2 hshutting True.intro
      exact h.onward htenure (.inl rfl) rfl (fun _ => hpast) rfl Activity.noConfusion

/-- What a session leaves that has given up its transport in order. -/
theorem left_of_finished (hpaced : ledger.Paced) (hswept : ledger.IsSwept) (htidy : ledger.IsTidy)
    (hfinished : ledger.books.activity = .finished) :
    ledger.jobs = [] ∧ ledger.tenure = .done ∧ ledger.books.lifecycle = .closed
      ∧ ledger.books.channel = [] ∧ ledger.books.options.keepaliveInterval.nanos ≠ 0 := by
  have hsequel := hpaced.resting hfinished True.intro
  have hending := isEnding_of_activity hsequel hfinished True.intro
  have hstays : ledger.sequel? ≠ some .dropLeft := by
    rw [hsequel]
    rintro ⟨⟩
  refine ⟨hpaced.idle hsequel, ?_, hpaced.ending hending, (hswept.swept hending hstays).1, ?_⟩
  · rw [tenure, hfinished]
  · exact htidy.timed (past_of_activity hsequel hfinished True.intro)

/-- What a session leaves that has crashed. -/
theorem left_of_crashed (hpaced : ledger.Paced) (htidy : ledger.IsTidy)
    (hcrashed : ledger.books.activity = .crashed) :
    ledger.jobs = [] ∧ ledger.tenure = .underWay ∧ ledger.books.lifecycle ≠ .preparing
      ∧ ledger.books.channel = [] := by
  have hsequel := hpaced.resting hcrashed True.intro
  have htenure := tenure_of_underWay hcrashed True.intro
  exact ⟨hpaced.idle hsequel, htenure, htidy.begun_underWay htenure, htidy.emptied hcrashed⟩

end Ledger

/-! ## Moves -/

namespace World

/-- The counters show where the session is, if it found them like this. -/
def IsCounted (found : Metrics) (world : World E N) : Prop :=
  world.session.metrics.connections = (world.ledger.tenure.metrics found).connections

section

variable {found : Metrics} {world next : World E N}

theorem IsCounted.of_tenure (h : world.IsCounted found) {tenure : Tenure}
    (htenure : world.ledger.tenure = tenure) :
    world.session.metrics.connections = (tenure.metrics found).connections := by
  rw [← htenure]
  exact h

theorem IsCounted.same (h : world.IsCounted found)
    (hgauge : next.session.gauge = world.session.gauge) (hsequel : next.sequel? = world.sequel?) :
    next.IsCounted found := by
  have htenure : next.ledger.tenure = world.ledger.tenure :=
    Ledger.tenure_congr (congrArg Gauge.activity hgauge) hsequel
  rw [IsCounted, htenure]
  exact (congrArg Gauge.connections hgauge).trans h

theorem IsCounted.onward (h : world.IsCounted found) (hfrom : world.ledger.tenure = .underWay)
    (hto : next.ledger.tenure = .underWay)
    (hconnections : next.session.metrics.connections = world.session.metrics.connections) :
    next.IsCounted found := by
  rw [IsCounted, hto]
  exact hconnections.trans (h.of_tenure hfrom)

theorem IsCounted.stays (h : world.IsCounted found) {activity : Activity}
    (hactivity : world.session.activity = activity) (hunderWay : activity.IsUnderWay)
    (hgauge : next.session.gauge = world.session.gauge) : next.IsCounted found := by
  have hto : next.session.activity = activity :=
    (congrArg Gauge.activity hgauge).trans hactivity
  exact h.onward (Ledger.tenure_of_underWay hactivity hunderWay)
    (Ledger.tenure_of_underWay hto hunderWay) (congrArg Gauge.connections hgauge)

end

variable (world : World E N)

theorem conclude_counted {found : Metrics} (h : world.IsCounted found) (hpaced : world.ledger.Paced)
    {sequel : Sequel} (hsequel : world.sequel? = some sequel) :
    (world.conclude sequel).IsCounted found := by
  have hfrom : world.ledger.tenure = .underWay := hpaced.tenure_of_sequel hsequel
  have hflush : ∀ afterwards, IsCounted found ({ world with sequel? := none }.become
      (world.session.beginFlush world.duplex afterwards)) := fun afterwards =>
    h.onward hfrom (Ledger.tenure_of_underWay rfl (world.session.beginFlush_underWay _ afterwards))
      (world.session.beginFlush_connections _ afterwards)
  cases sequel with
  | flush afterwards => exact hflush afterwards
  | goOn afterwards =>
      exact h.onward hfrom
        (Ledger.tenure_of_underWay rfl (Session.proceed_underWay _ world.duplex afterwards))
        (Session.proceed_connections _ world.duplex afterwards)
  | dropLeft =>
      rw [conclude]
      split
      · exact h.same (Session.gauge_abandon _ _) rfl
      · exact hflush .shutdown

theorem startTurn_counted {found : Metrics} (h : world.IsCounted found)
    (hsequel : world.sequel? = none) (hactivity : world.session.activity = .starting) :
    world.startTurn.IsCounted found := by
  have hfresh : world.ledger.tenure = .fresh := by
    simp only [Ledger.tenure, ledger, Session.books, hactivity, hsequel, if_true]
  have hcounted : (world.session.count Metrics.established).metrics.connections
      = found.established.connections := Metrics.connections_established (h.of_tenure hfresh)
  rw [startTurn]
  split
  · have hbegun : ({ world with session := { world.session.count Metrics.established with
          lifecycle := .active, queue := [] } }.assign
            ((world.session.count Metrics.established).queue.map .execute)
            (.flush .firstWait)).ledger.tenure = .underWay := by
      simp only [Ledger.tenure, ledger, assign, Session.books, Session.count, hactivity,
        reduceCtorEq, if_false]
    rw [IsCounted, hbegun]
    exact hcounted
  · have hbegun : (world.become ((world.session.count Metrics.established).firstWait
        world.duplex)).ledger.tenure = .underWay :=
      Ledger.tenure_of_underWay rfl (Session.proceed_underWay _ world.duplex .firstWait)
    rw [IsCounted, hbegun]
    exact (Session.proceed_connections _ world.duplex .firstWait).trans hcounted

theorem finish_counted {found : Metrics} (h : world.IsCounted found)
    (hfrom : world.ledger.tenure = .underWay) : world.finish.IsCounted found :=
  Metrics.connections_ended (h.of_tenure hfrom)

theorem turn_counted {found : Metrics} (h : world.IsCounted found) (hsequel : world.sequel? = none)
    (pick : Pick) : (world.turn pick).IsCounted found := by
  rw [turn]
  split
  · exact h
  · exact h
  · exact h
  · rename_i hactivity
    exact world.startTurn_counted h hsequel hactivity
  · rename_i hactivity
    rcases world.waitTurn_gauge pick with hgauge | hcrashed
    · exact h.stays hactivity True.intro hgauge
    · have hto : (world.waitTurn pick).session.activity = .crashed :=
        congrArg Gauge.activity hcrashed
      exact h.onward (Ledger.tenure_of_underWay hactivity True.intro)
        (Ledger.tenure_of_underWay hto True.intro) (congrArg Gauge.connections hcrashed)
  · rename_i flush hactivity
    exact h.stays hactivity True.intro (world.flushTurn_gauge flush pick)
  · rename_i deadline hactivity
    rcases world.shutdownTurn_cases deadline pick with hgauge | hfinish
    · exact h.stays hactivity True.intro hgauge
    · rw [hfinish]
      exact world.finish_counted h (Ledger.tenure_of_underWay hactivity True.intro)

theorem step_counted {found : Metrics} (h : world.IsCounted found) (hpaced : world.ledger.Paced)
    (move : Move E N) : (world.step move).IsCounted found := by
  cases move with
  | spawn program => exact h
  | thread index =>
      rw [step, runThread]
      split
      · exact h.same (world.session.runErrand_gauge _) rfl
      · exact h
  | attach options duplex =>
      rw [step, Session.attach]
      split
      · rename_i hattach
        split at hattach
        · rename_i hdetached
          cases hattach
          have hsequel : world.sequel? = none := hpaced.resting hdetached True.intro
          have hfresh : world.ledger.tenure = .fresh := by
            simp only [Ledger.tenure, ledger, Session.books, hdetached]
          simp only [IsCounted, Ledger.tenure, ledger, Session.books, hsequel, if_true]
          exact h.of_tenure hfresh
        · cases hattach
      · exact h
  | surround surroundings => exact h
  | transport duplex => exact h
  | drive pick =>
      rw [step, drive]
      split
      · exact h.same (world.session.runJob_gauge _) rfl
      · rename_i sequel hjobs hsequel
        exact world.conclude_counted h hpaced hsequel
      · rename_i hjobs hsequel
        exact world.turn_counted h hsequel pick

/-! ## All schedules -/

/-- A world of its own, whose counters of connections others have used before. -/
def among (metrics : Metrics) (registry : Registry E) (listener : Listener E N) : World E N :=
  { World.new registry listener with
    session := (World.new registry listener).session.count fun _ => metrics }

theorem run_tidy (metrics : Metrics) (registry : Registry E) (listener : Listener E N)
    (moves : List (Move E N)) :
    let world := (among metrics registry listener).run moves
    world.ledger.Paced ∧ world.ledger.IsAccounted ∧ world.ledger.IsSwept ∧ world.ledger.IsTidy
      ∧ world.IsCounted metrics := by
  have hnew : (among metrics registry listener).ledger.IsOrdered := ordered_new registry listener
  have htidy : (among metrics registry listener).ledger.IsTidy :=
    ⟨fun hbegun => (hbegun rfl).elim, False.elim, nofun⟩
  refine run_preserves (P := fun world : World E N => world.ledger.Paced ∧ world.ledger.IsAccounted
    ∧ world.ledger.IsSwept ∧ world.ledger.IsTidy ∧ world.IsCounted metrics) moves ?_ _
    ⟨hnew.paced, hnew.accounted, hnew.swept, htidy, rfl⟩
  rintro move - world ⟨hpaced, haccounted, hswept, htidy, hcounted⟩
  have hentry : world.ledger.Entry (world.step move).ledger :=
    world.step_entry move
  exact ⟨hpaced.entry hentry, haccounted.entry hpaced hentry, hswept.entry hpaced hentry,
    htidy.entry hpaced hentry, world.step_counted hcounted hpaced move⟩

/-- When a session is over, under any schedule, it has counted one connection, and no command waits
in its queue or in its channel.  It has crashed exactly if there was a timer that it could not set,
which is the case without a keepalive interval, and then it is still counted as active.  Otherwise
it is closed; one attempt has closed it, and unless that attempt was graceful the listener is told
of it once, by the session itself or by the thread that made the attempt, which may not have come to
it yet; and the number of active connections is what the session found, unless the counter
wrapped. -/
theorem over_in_order_iff (metrics : Metrics) (registry : Registry E) (listener : Listener E N)
    (moves : List (Move E N)) :
    let start := among metrics registry listener
    let world := start.run moves
    world.session.activity.isOver →
      world.session.queue = [] ∧ world.session.channel = [] ∧ world.jobs = []
      ∧ world.session.metrics.connectionsTotal = metrics.connectionsTotal + 1
      ∧ (world.session.activity = .crashed ↔ ∃ before move after, moves = before ++ move :: after
          ∧ (start.run before).FailsTimer move)
      ∧ (world.session.options.keepaliveInterval.nanos = 0 → world.session.activity = .crashed)
      ∧ (world.session.activity ≠ .crashed →
          world.session.isClosed
          ∧ (∃ winner : Attempt, (start.attempts moves).filter Attempt.won = [winner]
              ∧ world.session.reason? = some winner.reason
              ∧ world.told ++ tellingBy world.threads.flatten
                  = if winner.graceful then [] else [winner.reason])
          ∧ world.session.metrics.connectionsActive
              = if metrics.connectionsActive + 1 = 0 then 0 else metrics.connectionsActive)
      ∧ (world.session.activity = .crashed →
          world.session.metrics.connectionsActive = metrics.connectionsActive + 1) := by
  intro start world hover
  obtain ⟨hpaced, ⟨_, _, _, haccounted⟩, hswept, htidy, hcounted⟩ :=
    run_tidy metrics registry listener moves
  have hcrashes := run_crashed_iff start (paced_new registry listener) Activity.noConfusion moves
  rcases Activity.isOver_iff.mp hover with hfinished | hcrashed
  · obtain ⟨hjobs, htenure, hclosed, hchannel, hinterval⟩ :=
      Ledger.left_of_finished hpaced hswept htidy hfinished
    have hstart : IsDecided start.session.fate start.telling [] := decided_new registry listener
    have hdecided : IsDecided world.session.fate world.telling _ := decided_of_start hstart moves
    obtain ⟨winner, hwinners, hreason, htold⟩ := hdecided.told_of_closed hclosed
    obtain ⟨htotal, hactive⟩ := Prod.ext_iff.mp (hcounted.of_tenure htenure)
    have hjobs : world.jobs = [] := hjobs
    have htelling : world.telling = tellingBy world.threads.flatten := by
      rw [telling, hjobs]
      rfl
    rw [htelling] at htold
    refine ⟨haccounted.kept ?_, hchannel, hjobs, htotal, hcrashes, ?_, fun _ => ?_, ?_⟩
    · rw [hclosed]
      exact Lifecycle.noConfusion
    · exact fun hnone => (hinterval hnone).elim
    · exact ⟨Session.isClosed_iff.mpr hclosed, ⟨winner, hwinners, hreason, htold⟩,
        hactive.trans metrics.active_established_ended⟩
    · exact fun hcrashed => Activity.noConfusion (hfinished.symm.trans hcrashed)
  · obtain ⟨hjobs, htenure, hbegun, hchannel⟩ := Ledger.left_of_crashed hpaced htidy hcrashed
    obtain ⟨htotal, hactive⟩ := Prod.ext_iff.mp (hcounted.of_tenure htenure)
    exact ⟨haccounted.kept hbegun, hchannel, hjobs, htotal, hcrashes, fun _ => hcrashed,
      fun hgoing => (hgoing hcrashed).elim, fun _ => hactive⟩

/-- Counters of seven connections, of which three are active. -/
def busy : Metrics :=
  { connectionsTotal := 7, connectionsActive := 3 }

/-- The session is over before the thread that has closed it tells the listener. -/
theorem over_in_order_iff_of_racing :
    let start := among busy (.standard .client) Listener.idle
    let world := start.run racing
    world.session.activity.isOver ∧ world.session.isClosed
      ∧ world.session.queue = [] ∧ world.session.channel = [] ∧ world.jobs = []
      ∧ (∃ winner : Attempt, (start.attempts racing).filter Attempt.won = [winner]
          ∧ world.session.reason? = some winner.reason
          ∧ tellingBy world.threads.flatten = if winner.graceful then [] else [winner.reason])
      ∧ world.told = []
      ∧ world.session.metrics.connectionsTotal = 8
      ∧ world.session.metrics.connectionsActive = 3 := by
  have hover : ((among busy (.standard .client) Listener.idle).run
      racing).session.activity.isOver := by decide +kernel
  have hgoing : ((among busy (.standard .client) Listener.idle).run
      racing).session.activity ≠ .crashed := by decide +kernel
  have hnone : ((among busy (.standard .client) Listener.idle).run racing).told = [] := by
    decide +kernel
  obtain ⟨hqueue, hchannel, hjobs, htotal, -, -, hordered, -⟩ :=
    over_in_order_iff busy (.standard .client) Listener.idle racing hover
  obtain ⟨hclosed, ⟨winner, hwinners, hreason, htold⟩, hactive⟩ := hordered hgoing
  rw [hnone, List.nil_append] at htold
  exact ⟨hover, hclosed, hqueue, hchannel, hjobs, ⟨winner, hwinners, hreason, htold⟩, hnone,
    htotal, hactive⟩

/-- A session gets a transport and a timer that it cannot set. -/
def untimed (keepaliveInterval : Span) : List (Move Empty Unit) :=
  [.attach { SessionOptions.standard .server with keepaliveInterval } (.new 64),
    .drive .stop, .drive .stop]

/-- It is over, and still open and counted as active, whether there is no interval or one that is
too long. -/
theorem crashed_open_and_active :
    let start := World.new (.standard .server) Listener.idle
    let empty := start.run (untimed (.ofMillis 0))
    let endless := start.run (untimed (.ofMillis (2 ^ 64 * 999)))
    (empty.session.activity.isOver ∧ ¬ empty.session.isClosed
        ∧ empty.told ++ empty.telling = [] ∧ empty.session.metrics.connectionsTotal = 1
        ∧ empty.session.metrics.connectionsActive = 1)
      ∧ endless.session.activity.isOver ∧ ¬ endless.session.isClosed
        ∧ endless.told ++ endless.telling = [] ∧ endless.session.metrics.connectionsTotal = 1
        ∧ endless.session.metrics.connectionsActive = 1 := by
  decide +kernel

end World
end PhaseWire
