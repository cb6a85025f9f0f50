import PhaseWire.Proofs.Interleaving.Timer

/-
# Commands are neither lost, doubled nor reordered

Under any schedule the accepted commands, in the order of the lock, are
made up of seven stretches: those that were carried out, those that were
taken at the start and are about to be, those that were dropped, those
that went down with a crash, those in the channel, those in the queue, and
those that came too late.  `Accounted` says so, and says which stretches
can be there at which time; a call and a turn only move commands from one
stretch to the next.
-/

namespace PhaseWire

variable {E N : Type}

theorem inHand_tell (tags : List Tag) (result : Except Fault Unit) :
    inHand (World.tell (E := E) (N := N) tags result) = [] := by
  rw [inHand, World.tell, List.filterMap_map]
  exact List.filterMap_eq_nil_iff.mpr fun _ _ => rfl

theorem droppedIn_tell (tags : List Tag) (result : Except Fault Unit) :
    droppedIn (World.tell (E := E) (N := N) tags result) = [] := by
  rw [droppedIn, World.tell, List.filterMap_map]
  exact List.filterMap_eq_nil_iff.mpr fun _ _ => rfl

theorem inHand_bury (flush : Flush) (fault : Fault) :
    inHand (World.bury (E := E) (N := N) flush fault) = [] := by
  rw [World.bury, inHand_append, inHand_tell]
  rfl

theorem droppedIn_bury (flush : Flush) (fault : Fault) :
    droppedIn (World.bury (E := E) (N := N) flush fault) = [] := by
  rw [World.bury, droppedIn_append, droppedIn_tell]
  rfl

variable [CustomPackets E]

/-! ## The stretches -/

/-- Where the accepted commands are.  `pending` are about to be dropped, and `leaving` is whether
the session is at it. -/
structure Accounted (books : Books E) (hand pending : List (Command E)) (leaving : Prop)
    (dropped lost late : List (Command E)) : Prop where
  order : books.submitted
    = books.executed ++ hand ++ dropped ++ lost ++ books.channel ++ books.queue ++ late
  told : (books.abandoned ++ pending).Perm (dropped ++ late)
  preparing : books.lifecycle = .preparing → books.executed = [] ∧ hand = [] ∧ dropped = []
    ∧ lost = [] ∧ books.channel = [] ∧ late = []
  kept : books.lifecycle ≠ .preparing → books.queue = []
  active : books.lifecycle = .active → dropped = []
  tardy : late ≠ [] → books.lifecycle = .closed ∨ books.activity = .crashed
  sunk : lost ≠ [] → books.activity = .crashed
  empty : books.activity = .crashed → books.channel = []
  behind : books.channel ≠ [] → dropped = [] ∨ leaving

namespace Accounted

variable {books next : Books E} {hand pending dropped lost late : List (Command E)}
  {leaving : Prop} {command : Command E}

theorem congr (h : Accounted books hand pending leaving dropped lost late)
    (hlifecycle : next.lifecycle = books.lifecycle) (hactivity : next.activity = books.activity)
    (hqueue : next.queue = books.queue) (hchannel : next.channel = books.channel)
    (hsubmitted : next.submitted = books.submitted) (hexecuted : next.executed = books.executed)
    (habandoned : next.abandoned = books.abandoned) :
    Accounted next hand pending leaving dropped lost late := by
  obtain ⟨horder, htold, hpreparing, hkept, hactive, htardy, hsunk, hempty, hbehind⟩ := h
  constructor
  all_goals simp only [hlifecycle, hactivity, hqueue, hchannel, hsubmitted, hexecuted, habandoned]
  all_goals assumption

theorem perm (h : Accounted books hand pending leaving dropped lost late)
    {pending' : List (Command E)} (hpending : pending'.Perm pending) :
    Accounted books hand pending' leaving dropped lost late :=
  { h with told := (hpending.append_left books.abandoned).trans h.told }

theorem execute (h : Accounted books (command :: hand) pending leaving dropped lost late) :
    Accounted { books with executed := books.executed ++ [command] } hand pending leaving
      dropped lost late where
  order := by
    rw [h.order]
    simp
  told := h.told
  preparing hpreparing := by
    obtain ⟨-, hhand, -⟩ := h.preparing hpreparing
    cases hhand
  kept := h.kept
  active := h.active
  tardy := h.tardy
  sunk := h.sunk
  empty := h.empty
  behind := h.behind

theorem abandon (h : Accounted books hand (command :: pending) leaving dropped lost late) :
    Accounted (books.abandon command) hand pending leaving dropped lost late where
  order := h.order
  told := by
    have htold := h.told
    rw [List.append_cons] at htold
    exact htold
  preparing := h.preparing
  kept := h.kept
  active := h.active
  tardy := h.tardy
  sunk := h.sunk
  empty := h.empty
  behind := h.behind

/-- Only a closed session drops commands, unless it has crashed. -/
theorem closed_of_abandoned (h : Accounted books hand pending leaving dropped lost late)
    (habandoned : books.abandoned ++ pending ≠ []) :
    books.lifecycle = .closed ∨ books.activity = .crashed := by
  by_cases hlate : late = []
  · cases hlifecycle : books.lifecycle with
    | preparing =>
        obtain ⟨-, -, hdropped, -⟩ := h.preparing hlifecycle
        have htold := h.told
        rw [hdropped, hlate] at htold
        exact (habandoned htold.eq_nil).elim
    | active =>
        have htold := h.told
        rw [h.active hlifecycle, hlate] at htold
        exact (habandoned htold.eq_nil).elim
    | closed => exact .inl rfl
  · exact h.tardy hlate

theorem keep (h : Accounted books hand pending leaving dropped lost late)
    (hpreparing : books.lifecycle = .preparing) :
    Accounted { books with
      submitted := books.submitted ++ [command]
      queue := books.queue ++ [command] } hand pending leaving dropped lost late := by
  obtain ⟨-, -, -, -, -, hlate⟩ := h.preparing hpreparing
  refine { h with order := ?_, kept := ?_ }
  · simp only [h.order, hlate, List.append_assoc, List.append_nil]
  · intro hnot
    exact (hnot hpreparing).elim

theorem send (h : Accounted books hand pending leaving dropped lost late)
    (hactive : books.lifecycle = .active) (hgoing : books.activity ≠ .crashed) :
    Accounted { books with
      submitted := books.submitted ++ [command]
      channel := books.channel ++ [command] } hand pending leaving dropped lost late := by
  have hopen : books.lifecycle ≠ .preparing := by
    rw [hactive]
    exact Lifecycle.noConfusion
  have hlate : late = [] := by
    refine Classical.byContradiction fun hlate => ?_
    rcases h.tardy hlate with hclosed | hcrashed
    · rw [hactive] at hclosed
      cases hclosed
    · exact hgoing hcrashed
  refine { h with order := ?_, preparing := ?_, empty := ?_, behind := ?_ }
  · simp only [h.order, h.kept hopen, hlate, List.append_assoc, List.append_nil]
  · intro hpreparing
    exact (hopen hpreparing).elim
  · intro hcrashed
    exact (hgoing hcrashed).elim
  · intro _
    exact .inl (h.active hactive)

theorem refuse (h : Accounted books hand pending leaving dropped lost late)
    (hopen : books.lifecycle ≠ .preparing)
    (hend : books.lifecycle = .closed ∨ books.activity = .crashed) :
    Accounted { books with submitted := books.submitted ++ [command] } hand
      (pending ++ [command]) leaving dropped lost (late ++ [command]) := by
  refine { h with order := ?_, told := ?_, preparing := ?_, tardy := ?_ }
  · simp only [h.order, List.append_assoc]
  · have htold := h.told.append_right [command]
    rw [List.append_assoc, List.append_assoc] at htold
    exact htold
  · intro hpreparing
    exact (hopen hpreparing).elim
  · intro _
    exact hend

/-- Before the start nothing is behind the queue, and after it nothing is in it. -/
theorem queue_cases (h : Accounted books hand pending leaving dropped lost late)
    (hopen : books.lifecycle ≠ .closed) :
    books.queue = [] ∨ (lost = [] ∧ books.channel = [] ∧ late = []) := by
  cases hlifecycle : books.lifecycle with
  | preparing =>
      obtain ⟨-, -, -, hlost, hchannel, hlate⟩ := h.preparing hlifecycle
      exact .inr ⟨hlost, hchannel, hlate⟩
  | active =>
      refine .inl (h.kept ?_)
      rw [hlifecycle]
      exact Lifecycle.noConfusion
  | closed => exact (hopen hlifecycle).elim

theorem close (h : Accounted books hand pending leaving dropped lost late)
    (hopen : books.lifecycle ≠ .closed) :
    Accounted { books with lifecycle := .closed, queue := [] } hand (pending ++ books.queue)
      leaving (dropped ++ books.queue) lost late := by
  -- Either the queue is empty, or nothing stands between it and what was dropped.
  have hqueue := h.queue_cases hopen
  constructor
  · rcases hqueue with hnone | ⟨hlost, hchannel, hlate⟩
    · simp only [h.order, hnone, List.append_nil]
    · simp only [h.order, hlost, hchannel, hlate, List.append_assoc, List.append_nil]
  · have htold := h.told.append_right books.queue
    rw [List.append_assoc, List.append_assoc] at htold
    rw [List.append_assoc]
    exact htold.trans (List.perm_append_comm.append_left dropped)
  · intro hpreparing
    cases hpreparing
  · intro _
    rfl
  · intro hactive
    cases hactive
  · intro _
    exact .inl rfl
  · exact h.sunk
  · exact h.empty
  · intro hchannel
    rcases hqueue with hnone | ⟨-, hempty, -⟩
    · rw [hnone, List.append_nil]
      exact h.behind hchannel
    · exact (hchannel hempty).elim

theorem handled (h : Accounted books hand pending leaving dropped lost late)
    (hover : books.lifecycle = .active → books.activity.isOver → books.activity = .crashed)
    {more : List (Command E)} (hhandled : Handled books more next) :
    ∃ dropped late, Accounted next hand (pending ++ more) leaving dropped lost late := by
  cases hhandled with
  | same =>
      rw [List.append_nil]
      exact ⟨dropped, late, h⟩
  | kept hsendable hpreparing =>
      rw [List.append_nil]
      exact ⟨dropped, late, h.keep hpreparing⟩
  | sent hsendable hactive hgoing =>
      rw [List.append_nil]
      refine ⟨dropped, late, h.send hactive ?_⟩
      intro hcrashed
      rw [hcrashed] at hgoing
      cases hgoing
  | @late command hsendable hend =>
      refine ⟨dropped, late ++ [command], h.refuse ?_ ?_⟩
      · intro hpreparing
        rw [hpreparing] at hend
        rcases hend with hclosed | ⟨hactive, -⟩
        · cases hclosed
        · cases hactive
      · exact hend.imp_right fun ⟨hactive, hdone⟩ => hover hactive hdone
  | shut hopen => exact ⟨dropped ++ books.queue, late, h.close hopen⟩

theorem moved (h : Accounted books hand pending leaving dropped lost late) {activity : Activity}
    (hold : books.activity ≠ .crashed) (hnew : activity ≠ .crashed) :
    Accounted { books with activity } hand pending leaving dropped lost late where
  order := h.order
  told := h.told
  preparing := h.preparing
  kept := h.kept
  active := h.active
  tardy hlate := .inl ((h.tardy hlate).resolve_right hold)
  sunk hlost := (hold (h.sunk hlost)).elim
  empty hcrashed := (hnew hcrashed).elim
  behind := h.behind

theorem turned (h : Accounted books hand pending leaving dropped lost late) {leaving' : Prop}
    (hleaving : leaving → leaving' ∨ books.channel = []) :
    Accounted books hand pending leaving' dropped lost late := by
  refine { h with behind := fun hchannel => ?_ }
  rcases h.behind hchannel with hnone | hleave
  · exact .inl hnone
  · exact .inr ((hleaving hleave).resolve_right hchannel)

theorem crash (h : Accounted books hand pending leaving dropped lost late) {leaving' : Prop} :
    Accounted { books with activity := .crashed, channel := [], tags := [] } hand pending leaving'
      dropped (lost ++ books.channel) late where
  order := by simp only [h.order, List.append_assoc, List.nil_append]
  told := h.told
  preparing hpreparing := by
    obtain ⟨hexecuted, hhand, hdropped, hlost, hchannel, hlate⟩ := h.preparing hpreparing
    refine ⟨hexecuted, hhand, hdropped, ?_, rfl, hlate⟩
    rw [hlost, hchannel]
    rfl
  kept := h.kept
  active := h.active
  tardy _ := .inr rfl
  sunk _ := rfl
  empty _ := rfl
  behind hchannel := (hchannel rfl).elim

theorem start (h : Accounted books [] pending leaving dropped lost late)
    (hpreparing : books.lifecycle = .preparing) {leaving' : Prop} :
    Accounted { books with lifecycle := .active, queue := [] } books.queue pending leaving'
      dropped lost late := by
  obtain ⟨hexecuted, -, hdropped, hlost, hchannel, hlate⟩ := h.preparing hpreparing
  constructor
  · simp only [h.order, hexecuted, hdropped, hlost, hchannel, hlate, List.nil_append,
      List.append_nil]
  · exact h.told
  · intro hfalse
    cases hfalse
  · intro _
    rfl
  · intro _
    exact hdropped
  · intro hfalse
    exact (hfalse hlate).elim
  · exact h.sunk
  · exact h.empty
  · intro hfalse
    exact (hfalse hchannel).elim

variable {channel : List (Command E)}

theorem lost_nil (h : Accounted books hand pending leaving dropped lost late)
    (hchannel : books.channel = command :: channel) : lost = [] := by
  refine Classical.byContradiction fun hlost => ?_
  have hempty := h.empty (h.sunk hlost)
  rw [hchannel] at hempty
  cases hempty

theorem lifecycle_ne_preparing (h : Accounted books hand pending leaving dropped lost late)
    (hchannel : books.channel = command :: channel) : books.lifecycle ≠ .preparing := by
  intro hpreparing
  obtain ⟨-, -, -, -, hempty, -⟩ := h.preparing hpreparing
  rw [hchannel] at hempty
  cases hempty

theorem take (h : Accounted books [] pending leaving dropped lost late)
    (hchannel : books.channel = command :: channel) (hstays : ¬ leaving) (leaving' : Prop) :
    Accounted { books with channel } [command] pending leaving' dropped lost late := by
  have hne : books.channel ≠ [] := by
    rw [hchannel]
    exact List.cons_ne_nil command channel
  have hdropped : dropped = [] := (h.behind hne).resolve_right hstays
  refine { h with order := ?_, preparing := ?_, empty := ?_, behind := ?_ }
  · simp only [h.order, hchannel, hdropped, h.lost_nil hchannel, List.append_nil, List.append_assoc,
      List.cons_append, List.nil_append]
  · intro hpreparing
    exact (h.lifecycle_ne_preparing hchannel hpreparing).elim
  · intro hcrashed
    exact (hne (h.empty hcrashed)).elim
  · intro _
    exact .inl hdropped

theorem drop (h : Accounted books hand pending leaving dropped lost late)
    (hchannel : books.channel = command :: channel) (hleaving : leaving)
    (hclosed : books.lifecycle = .closed) :
    Accounted { books with channel } hand (command :: pending) leaving (dropped ++ [command])
      lost late := by
  refine { h with
    order := ?_, told := ?_, preparing := ?_, active := ?_, empty := ?_, behind := ?_ }
  · simp only [h.order, hchannel, h.lost_nil hchannel, List.append_nil, List.append_assoc,
      List.cons_append, List.nil_append]
  · have htold := h.told.cons command
    refine List.perm_middle.trans (htold.trans ?_)
    rw [List.append_assoc]
    exact List.perm_middle.symm
  · intro hpreparing
    exact (h.lifecycle_ne_preparing hchannel hpreparing).elim
  · intro hactive
    have hactive : books.lifecycle = .active := hactive
    rw [hclosed] at hactive
    cases hactive
  · intro hcrashed
    have hempty := h.empty hcrashed
    rw [hchannel] at hempty
    cases hempty
  · intro _
    exact .inr hleaving

/-! ## Jobs and moves -/

variable {record record' : Record} {dropping : List (Command E)} {job : Job E N}
  {rest jobs : List (Job E N)}

theorem rid (h : Accounted books (inHand (job :: rest)) (droppedIn (job :: rest) ++ dropping)
      leaving dropped lost late)
    (hhand : job.inHand? = none) (hdropped : job.dropped? = none) :
    Accounted books (inHand rest) (droppedIn rest ++ dropping) leaving dropped lost late := by
  rw [inHand, List.filterMap_cons_none hhand, droppedIn, List.filterMap_cons_none hdropped] at h
  exact h

theorem pass (h : Accounted books (inHand (job :: rest)) (droppedIn (job :: rest) ++ dropping)
      leaving dropped lost late)
    (hhand : job.inHand? = none) (hdropped : job.dropped? = none)
    (hjobs : inHand jobs = []) (hmore : droppedIn jobs = []) :
    Accounted books (inHand (jobs ++ rest)) (droppedIn (jobs ++ rest) ++ dropping) leaving
      dropped lost late := by
  rw [inHand_append, droppedIn_append, hjobs, hmore]
  exact h.rid hhand hdropped

/-- A job moves commands on. -/
theorem worked (h : Accounted books (inHand (job :: rest)) (droppedIn (job :: rest) ++ dropping)
      leaving dropped lost late)
    (hover : books.lifecycle = .active → books.activity.isOver → books.activity = .crashed)
    (hworked : Worked books record job jobs next record') :
    ∃ dropped late, Accounted next (inHand (jobs ++ rest)) (droppedIn (jobs ++ rest) ++ dropping)
      leaving dropped lost late := by
  cases hworked with
  | abandon command => exact ⟨dropped, late, h.abandon⟩
  | @call job errands jobs next hjob hjobs hhandled =>
      have hdropped : job.dropped? = none := by
        cases job with
        | errand task => exact hjob
        | _ => rfl
      have hhand : job.inHand? = none := by
        cases job with
        | execute command => exact hjob.elim
        | _ => rfl
      obtain ⟨dropped, late, hnext⟩ := (h.rid hhand hdropped).handled hover hhandled
      refine ⟨dropped, late, ?_⟩
      rw [inHand_append, inHand_append, inHand_errands, inHand_idle hjobs, droppedIn_append,
        droppedIn_append, droppedIn_errands, droppedIn_idle hjobs, List.append_nil]
      refine hnext.perm ?_
      rw [List.append_nil, List.append_assoc]
      exact List.perm_append_comm
  | send packet tag? => exact ⟨dropped, late, h.execute⟩
  | change htag hjobs =>
      have hnext := h.execute
      refine ⟨dropped, late, ?_⟩
      rw [inHand_append, droppedIn_append, inHand_idle hjobs, droppedIn_idle hjobs]
      exact hnext
  | late packet tag? next? hclosed =>
      have hidle := idle_resume next? (.ok ())
      have hhand := inHand_idle hidle
      have hdropped := droppedIn_idle hidle
      exact ⟨dropped, late, h.pass rfl rfl hhand hdropped⟩
  | timely packet tag? next? hopen => exact ⟨dropped, late, h.pass rfl rfl rfl rfl⟩
  | strange packet tag? next? fault hpacket =>
      have hidle := idle_resume next? (.error fault)
      exact ⟨dropped, late, h.pass rfl rfl (inHand_idle hidle) (droppedIn_idle hidle)⟩
  | @approach packet tag? next? jobs hidle =>
      refine ⟨dropped, late, h.pass rfl rfl ?_ ?_⟩
      · rw [inHand_append, inHand_idle hidle]
        rfl
      · rw [droppedIn_append, droppedIn_idle hidle]
        rfl
  | encoded packet tag? next? wire =>
      have hidle := idle_resume next? (.ok ())
      have hnext := h.pass rfl rfl (inHand_idle hidle) (droppedIn_idle hidle)
      exact ⟨dropped, late, hnext.congr rfl rfl rfl rfl rfl rfl rfl⟩
  | broken packet tag? next? fault =>
      have hidle := idle_resume next? (.error fault)
      have hhand := inHand_idle hidle
      have hdropped := droppedIn_idle hidle
      exact ⟨dropped, late, h.pass rfl rfl hhand hdropped⟩
  | complete tag? result =>
      have hnext := h.rid rfl rfl
      exact ⟨dropped, late, hnext.congr rfl rfl rfl rfl rfl rfl rfl⟩

end Accounted

theorem Afterwards.LeadsTo.ne_crashed {afterwards : Afterwards} {activity : Activity}
    (h : afterwards.LeadsTo activity) : activity ≠ .crashed := by
  rcases h.cases with ⟨rfl, -⟩ | ⟨⟨deadline, rfl⟩, -⟩
  · exact Activity.noConfusion
  · exact Activity.noConfusion

namespace Ledger

/-- Every accepted command is in its place. -/
def IsAccounted (ledger : Ledger E N) : Prop :=
  ∃ dropped lost late, Accounted ledger.books (inHand ledger.jobs)
    (droppedIn ledger.jobs ++ ledger.dropping) (ledger.sequel? = some .dropLeft) dropped lost late

variable {ledger next : Ledger E N}

theorem Paced.crashed_of_over (h : ledger.Paced) (hactive : ledger.books.lifecycle = .active)
    (hover : ledger.books.activity.isOver) : ledger.books.activity = .crashed := by
  cases hactivity : ledger.books.activity with
  | finished =>
      have hsequel := h.resting hactivity True.intro
      have hclosed := h.ending (isEnding_of_activity hsequel hactivity True.intro)
      rw [hactive] at hclosed
      cases hclosed
  | crashed => rfl
  | _ =>
      rw [hactivity] at hover
      cases hover

/-- The channel is empty before the session goes on from what is left. -/
theorem channel_of_due {afterwards : Afterwards} (hdue : ledger.IsDue afterwards)
    (hleft : ledger.sequel? = some .dropLeft) : ledger.books.channel = [] := by
  obtain ⟨-, hsequel | ⟨-, hchannel, -⟩⟩ := hdue
  · rw [hsequel] at hleft
    cases hleft
  · exact hchannel

theorem channel_of_through {afterwards : Afterwards} (hthrough : ledger.IsThrough afterwards)
    (hleft : ledger.sequel? = some .dropLeft) : ledger.books.channel = [] := by
  rcases hthrough with ⟨hdue, -⟩ | ⟨-, hsequel⟩ | ⟨hidle, -⟩
  · exact channel_of_due hdue hleft
  · rw [hsequel] at hleft
    cases hleft
  · rw [hidle.2] at hleft
    cases hleft

theorem IsAccounted.entry (h : ledger.IsAccounted)
    (hpaced : ledger.Paced) (hentry : ledger.Entry next) : next.IsAccounted := by
  obtain ⟨dropped, lost, late, h⟩ := h
  cases hentry with
  | stay => exact ⟨dropped, lost, late, h⟩
  | call hhandled hdropping =>
      obtain ⟨dropped, late, hnext⟩ := h.handled hpaced.crashed_of_over hhandled
      refine ⟨dropped, lost, late, hnext.perm ?_⟩
      rw [List.append_assoc]
      exact hdropping.append_left _
  | abandon hdropping =>
      refine ⟨dropped, lost, late, (h.perm ?_).abandon⟩
      exact List.perm_middle.symm.trans (hdropping.symm.append_left _)
  | attach hdetached =>
      have hold : ledger.books.activity ≠ .crashed := by
        rw [hdetached]
        exact Activity.noConfusion
      have hnext : Accounted { ledger.books with activity := .starting } _ _ _ _ _ _ :=
        h.moved hold Activity.noConfusion
      exact ⟨dropped, lost, late, hnext.congr rfl rfl rfl rfl rfl rfl rfl⟩
  | job hjobs hworked =>
      rw [hjobs] at h
      obtain ⟨dropped, late, hnext⟩ := h.worked hpaced.crashed_of_over hworked
      exact ⟨dropped, lost, late, hnext⟩
  | start hidle hstarting hpreparing =>
      rw [hidle.1] at h
      refine ⟨dropped, lost, late, ?_⟩
      rw [inHand_executes, droppedIn_executes]
      exact h.start hpreparing
  | @execute command channel jobs next hidle hwaiting hchannel hworked =>
      rw [hidle.1, hidle.2] at h
      have htaken : Accounted { ledger.books with channel } (inHand [Job.execute (N := N) command])
          (droppedIn [Job.execute (N := N) command] ++ ledger.dropping)
          (some (Sequel.flush .wait) = some .dropLeft) _ _ _ := h.take hchannel nofun _
      obtain ⟨dropped, late, hnext⟩ := htaken.worked hpaced.crashed_of_over hworked
      rw [List.append_nil] at hnext
      exact ⟨dropped, lost, late, hnext⟩
  | assign hidle hwaiting hjobs =>
      rw [hidle.1, hidle.2] at h
      refine ⟨dropped, lost, late, ?_⟩
      rw [inHand_idle hjobs, droppedIn_idle hjobs]
      exact h.turned nofun
  | stop reason hidle hwaiting hclosed =>
      rw [hidle.1, hidle.2] at h
      exact ⟨dropped, lost, late, h.turned nofun⟩
  | hand count => exact ⟨dropped, lost, late, h.congr rfl rfl rfl rfl rfl rfl rfl⟩
  | @settleDone flush hidle hflushing hempty =>
      rw [hidle.1, hidle.2] at h
      have hnext : Accounted ledger.books _ _ (some (Sequel.goOn flush.afterwards) = some .dropLeft)
          _ _ _ := h.turned nofun
      refine ⟨dropped, lost, late, ?_⟩
      rw [inHand_tell, droppedIn_tell]
      exact hnext.congr rfl rfl rfl rfl rfl rfl rfl
  | settleFailed fault hidle hflushing hdropped =>
      rw [hidle.1, hidle.2] at h
      refine ⟨dropped, lost, late, ?_⟩
      rw [inHand_append, inHand_errands, inHand_bury, droppedIn_append, droppedIn_errands, hdropped,
        droppedIn_bury]
      exact h.turned nofun
  | @flush afterwards flush hdue htags hafterwards =>
      have hold := Activity.ne_of_awake (hpaced.awake_of_due hdue) .crashed True.intro
      have hnext : Accounted { ledger.books with activity := .flushing flush } _ _
          ((none : Option Sequel) = some .dropLeft) _ _ _ :=
        (h.moved hold Activity.noConfusion).turned fun hleft => .inr (channel_of_due hdue hleft)
      exact ⟨dropped, lost, late, hnext.congr rfl rfl rfl rfl rfl rfl rfl⟩
  | proceed hthrough hleads htimer =>
      have hold := Activity.ne_of_awake (hpaced.awake_of_through hthrough) .crashed True.intro
      have hmoved := h.moved hold hleads.ne_crashed
      exact ⟨dropped, lost, late,
        hmoved.turned fun hleft => .inr (channel_of_through hthrough hleft)⟩
  -- Nobody drops what is in the channel of a session that crashes.
  | crash hsets => exact ⟨dropped, _, late, h.crash⟩
  | drop hjobs hsequel hchannel =>
      have hclosed := hpaced.ending (isEnding_of_sequel hsequel True.intro)
      exact ⟨_, lost, late, (h.drop hchannel hsequel hclosed).abandon⟩
  | finish hidle hshutting =>
      have hold : ledger.books.activity ≠ .crashed := by
        rw [hshutting]
        exact Activity.noConfusion
      exact ⟨dropped, lost, late, h.moved hold Activity.noConfusion⟩

end Ledger

/-! ## All schedules -/

namespace World

/-- The accepted commands, in the order of the lock. -/
def submitted (world : World E N) : List (Command E) :=
  world.session.events.filterMap Event.submitted?

/-- The commands that were carried out. -/
def executed (world : World E N) : List (Command E) :=
  world.session.events.filterMap Event.executed?

/-- The commands that were taken at the start and are about to be carried out. -/
def drained (world : World E N) : List (Command E) :=
  inHand world.jobs

/-- The commands that were dropped, also those whose senders are yet to be told. -/
def abandoned (world : World E N) : List (Command E) :=
  world.session.events.filterMap Event.abandoned?
    ++ (droppedIn world.jobs ++ droppedBy world.threads.flatten)

theorem accounted_new (registry : Registry E) (listener : Listener E N) :
    (World.new registry listener).ledger.IsAccounted := by
  refine ⟨[], [], [], ?_⟩
  constructor
  · rfl
  · exact .nil
  · intro _
    exact ⟨rfl, rfl, rfl, rfl, rfl, rfl⟩
  · intro hnot
    exact (hnot rfl).elim
  · intro hactive
    rfl
  · intro hlate
    exact (hlate rfl).elim
  · intro hlost
    exact (hlost rfl).elim
  · intro _
    rfl
  · intro hchannel
    exact (hchannel rfl).elim

/-- The pace and the places of the commands, under any schedule. -/
theorem run_accounted (registry : Registry E) (listener : Listener E N)
    (moves : List (Move E N)) :
    let world := (World.new registry listener).run moves
    world.ledger.Paced ∧ world.ledger.IsAccounted := by
  refine run_preserves (P := fun world : World E N => world.ledger.Paced ∧ world.ledger.IsAccounted)
    moves ?_ _ ⟨paced_new registry listener, accounted_new registry listener⟩
  intro move hmove world h
  have hentry := world.step_entry move
  exact ⟨h.1.entry hentry, h.2.entry h.1 hentry⟩

/-- Under any schedule every accepted command is in one place.  In the order of the lock come first
the commands that were carried out, then those that were taken at the start, those that were dropped
from channel or queue, those in the channel, those in the queue, and those that came too late.  What
was dropped or came too late was abandoned, and nothing else was, and only by a closed session.
Before the start everything is in the queue, and after it nothing is.  Only a session that cannot
set its timer crashes, and then what was in its channel is lost. -/
theorem commands_in_order (registry : Registry E) (listener : Listener E N)
    (moves : List (Move E N)) :
    let world := (World.new registry listener).run moves
    (∃ dropped lost late : List (Command E),
        world.submitted = world.executed ++ world.drained ++ dropped ++ lost
            ++ world.session.channel ++ world.session.queue ++ late
          ∧ world.abandoned.Perm (dropped ++ late)
          ∧ (lost ≠ [] → world.session.activity = .crashed))
      ∧ world.executed <+: world.submitted
      ∧ (world.session.lifecycle = .preparing → world.submitted = world.session.queue)
      ∧ (world.session.lifecycle ≠ .preparing → world.session.queue = [])
      ∧ (world.abandoned ≠ [] → world.session.isClosed ∨ world.session.activity = .crashed)
      ∧ (world.session.activity = .crashed → ∃ before move after, moves = before ++ move :: after
          ∧ ((World.new registry listener).run before).FailsTimer move) := by
  intro world
  obtain ⟨hpaced, dropped, lost, late, h⟩ := run_accounted registry listener moves
  have horder : world.submitted = world.executed ++ world.drained ++ dropped ++ lost
      ++ world.session.channel ++ world.session.queue ++ late := h.order
  refine ⟨⟨dropped, lost, late, horder, h.told, h.sunk⟩, ?_, ?_, h.kept, ?_, ?_⟩
  · rw [horder]
    simp only [List.append_assoc]
    exact List.prefix_append _ _
  · intro hpreparing
    obtain ⟨hexecuted, hdrained, hdropped, hlost, hchannel, hlate⟩ := h.preparing hpreparing
    have hexecuted : world.executed = [] := hexecuted
    have hdrained : world.drained = [] := hdrained
    have hchannel : world.session.channel = [] := hchannel
    simp only [horder, hexecuted, hdrained, hdropped, hlost, hchannel, hlate, List.nil_append,
      List.append_nil]
  · intro habandoned
    rw [Session.isClosed_iff]
    exact h.closed_of_abandoned habandoned
  · exact (run_crashed_iff _ (paced_new registry listener) Activity.noConfusion moves).mp

end World
end PhaseWire
