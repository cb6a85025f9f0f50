import PhaseWire.Proofs.Interleaving.Completions
import PhaseWire.Proofs.Interleaving.Closing

/-
# What is written after the close

A write looks whether the session is open, moves it to the packet's phase,
which the listener is told, and then encodes the packet.  It does not look
again.  So a frame can be encoded after the close, but only by the one
write that stood between its look and its frame when the session was closed
(`World.writing`); and if nobody else moves meanwhile, only a hook of the
listener can have closed the session there.  Every other packet that has no
frame by then gets none, and its sender is told that the session is closed.
-/

namespace PhaseWire

variable {E N : Type}

/-! ## Hooks that leave a session open -/

/-- A program that closes no session. -/
def Hook.Spares : Hook E N → Prop
  | done => True
  | note _ next => next.Spares
  | look next => ∀ view, (next view).Spares
  | call (.close _ _) _ => False
  | call (.checkAlive _) _ => False
  | call _ next => ∀ reply, (next reply).Spares

/-- An errand that closes no session. -/
def Errand.Spares : Errand E N → Prop
  | abandon _ => True
  | hook rest => rest.Spares
  | cancel => True
  | announce _ => False
  | close _ _ => False

/-! ## Writes under way -/

namespace Job

/-- Whose packet a job is about to encode. -/
def encoding? : Job E N → Option (Option Tag)
  | approach _ tag? _ | encode _ tag? _ => some tag?
  | _ => none

/-- A job that comes between the look of a write and its frame. -/
def IsStep : Job E N → Prop
  | errand _ | enter _ | tell _ => True
  | _ => False

/-- A job that closes no session. -/
def Spares : Job E N → Prop
  | errand task => task.Spares
  | _ => True

theorem IsStep.calm {job : Job E N} (h : job.IsStep) : ¬ job.IsEncode := by
  cases job with
  | approach packet tag? next? => exact h.elim
  | encode packet tag? next? => exact h.elim
  | _ => exact id

end Job

/-- Whose packets jobs are about to encode. -/
def encodingIn (jobs : List (Job E N)) : List (Option Tag) :=
  jobs.filterMap Job.encoding?

@[simp] theorem encodingIn_append (jobs more : List (Job E N)) :
    encodingIn (jobs ++ more) = encodingIn jobs ++ encodingIn more :=
  List.filterMap_append

theorem encodingIn_calm {jobs : List (Job E N)} (h : ∀ job ∈ jobs, ¬ job.IsEncode) :
    encodingIn jobs = [] := by
  refine List.filterMap_eq_nil_iff.mpr fun job hjob => ?_
  have hcalm := h job hjob
  cases job with
  | approach packet tag? next? => exact (hcalm True.intro).elim
  | encode packet tag? next? => exact (hcalm True.intro).elim
  | _ => rfl

variable [CustomPackets E]

/-- Before a packet is encoded there are only steps of a phase change left, and nothing encodes
after it; and where nobody may close the session meanwhile, it is open and the steps close
nothing. -/
inductive Orderly (spared : Prop) (session : Session E N) : List (Job E N) → Prop
  | calm {jobs : List (Job E N)} : (∀ job ∈ jobs, ¬ job.IsEncode) → Orderly spared session jobs
  | looked {packet : Packet E} {tag? : Option Tag} {next? : Option (Reply → Script E N)}
      {rest : List (Job E N)} : (∀ job ∈ rest, ¬ job.IsEncode) →
      (spared → ¬ session.isClosed) →
      Orderly spared session (.approach packet tag? next? :: rest)
  | writing {steps : List (Job E N)} {packet : Packet E} {tag? : Option Tag}
      {next? : Option (Reply → Script E N)} {rest : List (Job E N)} :
      (∀ job ∈ steps, job.IsStep) → (∀ job ∈ rest, ¬ job.IsEncode) →
      (spared → (∀ job ∈ steps, job.Spares) ∧ ¬ session.isClosed) →
      Orderly spared session (steps ++ .encode packet tag? next? :: rest)

/-- The phase hooks of a listener close no session. -/
def Listener.SparesPhases (listener : Listener E N) : Prop :=
  ∀ phase, (listener.onPhase phase).Spares

namespace Session

variable (session : Session E N)

theorem isClosed_congr {next : Session E N} (h : next.fate = session.fate) :
    next.isClosed = session.isClosed := by
  have hlifecycle : next.lifecycle = session.lifecycle := congrArg Fate.lifecycle h
  rw [isClosed, isClosed, hlifecycle]

theorem accept_spares (command : Command E) :
    ∀ errand ∈ (session.accept command).1, errand.Spares := by
  rw [accept]
  split
  · exact List.forall_mem_nil _
  · split
    · exact List.forall_mem_singleton.mpr True.intro
    · exact List.forall_mem_nil _
  · exact List.forall_mem_singleton.mpr True.intro

theorem accept_call_spares (command : Command E) (next : Reply → Hook E N) (reply : Reply)
    (hnext : ∀ reply, (next reply).Spares) :
    (∀ errand ∈ (session.accept command).1 ++ [.hook (next reply)], errand.Spares)
      ∧ (session.accept command).2.isClosed = session.isClosed :=
  ⟨List.forall_mem_append.mpr
      ⟨session.accept_spares command, List.forall_mem_singleton.mpr (hnext reply)⟩,
    session.isClosed_congr (session.accept_quiet command).2⟩

theorem runErrand_spares {errand : Errand E N} (h : errand.Spares) :
    (∀ left ∈ (session.runErrand errand).1, left.Spares)
      ∧ (session.runErrand errand).2.isClosed = session.isClosed := by
  cases errand with
  | abandon command =>
      exact ⟨List.forall_mem_nil _, session.isClosed_congr (session.fate_abandon command)⟩
  | announce reason => exact h.elim
  | hook rest =>
      cases rest with
      | done => exact ⟨List.forall_mem_nil _, rfl⟩
      | note note next => exact ⟨List.forall_mem_singleton.mpr h, rfl⟩
      | look next => exact ⟨List.forall_mem_singleton.mpr (h session.view), rfl⟩
      | call call next =>
          cases call with
          | send packet tag? =>
              simp only [runErrand, enterCall]
              cases session.registry.ofPacket packet with
              | error fault => exact ⟨List.forall_mem_singleton.mpr (h _), rfl⟩
              | ok descriptor => exact session.accept_call_spares _ next _ h
          | setPhase phase => exact session.accept_call_spares _ next _ h
          | setThreshold threshold => exact session.accept_call_spares _ next _ h
          | encrypt key =>
              simp only [runErrand, enterCall]
              split
              · exact session.accept_call_spares _ next _ h
              · exact ⟨List.forall_mem_singleton.mpr (h _), rfl⟩
          | close reason graceful => exact h.elim
          | checkAlive limit => exact h.elim
  | cancel => exact ⟨List.forall_mem_nil _, rfl⟩
  | close reason graceful => exact h.elim

/-- To move to a packet's phase leaves steps, and closes nothing. -/
theorem beginApproach_steps (phase : Phase) :
    (∀ job ∈ (session.beginApproach phase).1, job.IsStep ∧ job.Spares)
      ∧ (session.beginApproach phase).2.isClosed = session.isClosed := by
  obtain ⟨-, hfate⟩ := session.beginApproach_still phase
  refine ⟨?_, session.isClosed_congr hfate⟩
  rw [beginApproach]
  split
  · exact List.forall_mem_nil _
  · rw [beginPhase]
    split
    · exact List.forall_mem_nil _
    · exact List.forall_mem_singleton.mpr ⟨True.intro, True.intro⟩

theorem runStep_spares {job : Job E N} (hstep : job.IsStep) :
    (∀ left ∈ (session.runJob job).1, left.IsStep)
      ∧ (session.listener.SparesPhases → job.Spares →
        (∀ left ∈ (session.runJob job).1, left.Spares)
          ∧ (session.runJob job).2.isClosed = session.isClosed) := by
  cases job with
  | errand task =>
      refine ⟨?_, fun _ hspares => ?_⟩
      · intro left hleft
        obtain ⟨errand, -, rfl⟩ := List.mem_map.mp hleft
        exact True.intro
      · obtain ⟨hleft, hsame⟩ := session.runErrand_spares hspares
        exact ⟨List.forall_mem_map.mpr hleft, hsame⟩
  | enter phase =>
      exact ⟨List.forall_mem_singleton.mpr True.intro,
        fun _ _ => ⟨List.forall_mem_singleton.mpr True.intro, rfl⟩⟩
  | tell phase =>
      exact ⟨List.forall_mem_singleton.mpr True.intro,
        fun hspares _ => ⟨List.forall_mem_singleton.mpr (hspares phase), rfl⟩⟩
  | _ => exact hstep.elim

theorem beginWrite_orderly {spared : Prop} (packet : Packet E) (tag? : Option Tag)
    (next? : Option (Reply → Script E N)) :
    Orderly spared session (session.beginWrite packet tag? next?) := by
  rw [beginWrite]
  split
  · exact .calm (List.forall_mem_cons.mpr ⟨id, calm_idle (idle_resume next? _)⟩)
  · rename_i hopen
    exact .looked (List.forall_mem_nil _) fun _ => hopen

theorem runApproach_orderly {spared : Prop} (hopen : spared → ¬ session.isClosed)
    (packet : Packet E) (tag? : Option Tag) (next? : Option (Reply → Script E N)) :
    Orderly spared (session.runApproach packet tag? next?).2
      (session.runApproach packet tag? next?).1 := by
  rw [runApproach]
  split
  · exact .calm (calm_idle (idle_resume next? _))
  · rename_i descriptor hdescriptor
    obtain ⟨hsteps, hsame⟩ := session.beginApproach_steps descriptor.phase
    refine .writing (fun job hjob => (hsteps job hjob).1) (List.forall_mem_nil _) fun h => ?_
    refine ⟨fun job hjob => (hsteps job hjob).2, ?_⟩
    rw [hsame]
    exact hopen h

end Session

/-! ## One write at a time -/

section

variable {books next : Books E} {record record' : Record} {job : Job E N} {jobs : List (Job E N)}

/-- Of a closed session a job encodes what it was about to encode, if anything. -/
theorem Worked.late_frames (h : Worked books record job jobs next record')
    (hclosed : books.lifecycle = .closed) : ∃ late, record'.frames = record.frames ++ late
      ∧ (late.map Prod.fst ++ encodingIn jobs).Sublist job.encoding?.toList := by
  have hcalm := h.calm_unless fun _ => hclosed
  have hnone : record.frames = record.frames ++ [] := (List.append_nil _).symm
  cases h with
  | strange packet tag? next? fault hpacket =>
      refine ⟨[], hnone, ?_⟩
      rw [encodingIn_calm (calm_idle (idle_resume next? _))]
      exact List.nil_sublist _
  | approach packet tag? next? hjobs =>
      refine ⟨[], hnone, ?_⟩
      rw [encodingIn_append, encodingIn_calm (calm_idle hjobs)]
      exact .refl _
  | encoded packet tag? next? wire =>
      refine ⟨[(tag?, wire)], rfl, ?_⟩
      rw [encodingIn_calm (calm_idle (idle_resume next? _))]
      exact .refl _
  | broken packet tag? next? fault =>
      refine ⟨[], hnone, ?_⟩
      rw [encodingIn_calm (List.forall_mem_cons.mpr ⟨id, List.forall_mem_cons.mpr
        ⟨id, calm_idle (idle_resume next? _)⟩⟩)]
      exact List.nil_sublist _
  | call hidle hjobs hhandled =>
      refine ⟨[], hnone, ?_⟩
      rw [encodingIn_calm (List.forall_mem_append.mpr ⟨calm_errands _, calm_idle hjobs⟩)]
      exact List.nil_sublist _
  | _ =>
      refine ⟨[], hnone, ?_⟩
      rw [encodingIn_calm (hcalm id)]
      exact List.nil_sublist _

end

namespace Orderly

variable {spared : Prop} {session next : Session E N} {jobs rest : List (Job E N)}

theorem append (h : Orderly spared session jobs) (hrest : ∀ job ∈ rest, ¬ job.IsEncode) :
    Orderly spared session (jobs ++ rest) := by
  cases h with
  | calm hjobs => exact .calm (List.forall_mem_append.mpr ⟨hjobs, hrest⟩)
  | looked hmore hopen => exact .looked (List.forall_mem_append.mpr ⟨hmore, hrest⟩) hopen
  | writing hsteps hmore hspared =>
      rw [List.append_assoc, List.cons_append]
      exact .writing hsteps (List.forall_mem_append.mpr ⟨hmore, hrest⟩) hspared

theorem elsewhere (h : Orderly spared session jobs)
    (hnext : spared → encodingIn jobs ≠ [] → next.isClosed = session.isClosed) :
    Orderly spared next jobs := by
  cases h with
  | calm hjobs => exact .calm hjobs
  | looked hmore hopen =>
      refine .looked hmore fun h => ?_
      rw [hnext h (List.cons_ne_nil _ _)]
      exact hopen h
  | writing hsteps hmore hspared =>
      refine .writing hsteps hmore fun h => ?_
      obtain ⟨hspares, hopen⟩ := hspared h
      rw [hnext h ?_]
      · exact ⟨hspares, hopen⟩
      · rw [encodingIn_append]
        exact List.append_ne_nil_of_right_ne_nil _ (List.cons_ne_nil _ _)

theorem of_other {job : Job E N} (hwrite : ¬ job.IsWrite) (hjob : ¬ job.IsEncode)
    (hrest : ∀ job ∈ rest, ¬ job.IsEncode) :
    Orderly spared (session.runJob job).2 ((session.runJob job).1 ++ rest) :=
  .calm (List.forall_mem_append.mpr
    ⟨(session.runJob_worked .new job).calm_unless (fun h => (hwrite h).elim) hjob, hrest⟩)

theorem of_encode {packet : Packet E} {tag? : Option Tag} {next? : Option (Reply → Script E N)}
    (hrest : ∀ job ∈ rest, ¬ job.IsEncode) :
    Orderly spared (session.runJob (.encode packet tag? next?)).2
      ((session.runJob (.encode packet tag? next?)).1 ++ rest) := by
  refine .calm (List.forall_mem_append.mpr ⟨?_, hrest⟩)
  rw [Session.runJob, Session.runEncode]
  split
  · exact calm_idle (idle_resume next? _)
  · exact List.forall_mem_cons.mpr ⟨id, List.forall_mem_cons.mpr
      ⟨id, calm_idle (idle_resume next? _)⟩⟩

theorem work {job : Job E N} (h : Orderly spared session (job :: rest))
    (hspared : spared → session.listener.SparesPhases) :
    Orderly spared (session.runJob job).2 ((session.runJob job).1 ++ rest) := by
  generalize hjobs : job :: rest = jobs at h
  cases h with
  | calm hcalm =>
      rw [← hjobs] at hcalm
      obtain ⟨hjob, hrest⟩ := List.forall_mem_cons.mp hcalm
      cases job with
      | write packet tag? next? =>
          exact (session.beginWrite_orderly packet tag? next?).append hrest
      | _ => exact of_other id hjob hrest
  | looked hmore hopen =>
      obtain ⟨rfl, rfl⟩ := List.cons.inj hjobs
      exact (session.runApproach_orderly hopen _ _ _).append hmore
  | @writing steps packet tag? next? more hsteps hmore hopen =>
      -- A step of the phase change comes first, or it is the packet's turn.
      cases steps with
      | nil =>
          obtain ⟨rfl, rfl⟩ := List.cons.inj hjobs
          exact of_encode hmore
      | cons step steps =>
          rw [List.cons_append] at hjobs
          obtain ⟨rfl, rfl⟩ := List.cons.inj hjobs
          obtain ⟨hfirst, hothers⟩ := List.forall_mem_cons.mp hsteps
          obtain ⟨hleft, hspares⟩ := session.runStep_spares hfirst
          rw [← List.append_assoc]
          refine .writing (List.forall_mem_append.mpr ⟨hleft, hothers⟩) hmore fun h => ?_
          obtain ⟨hnow, hclosed⟩ := hopen h
          obtain ⟨hone, hlater⟩ := List.forall_mem_cons.mp hnow
          obtain ⟨hmild, hsame⟩ := hspares (hspared h) hone
          rw [hsame]
          exact ⟨List.forall_mem_append.mpr ⟨hmild, hlater⟩, hclosed⟩

/-- Only steps of a phase change come before a packet that is about to be encoded. -/
theorem step_first {job : Job E N} (h : Orderly spared session (job :: rest))
    {packet : Packet E} {tag? : Option Tag} {next? : Option (Reply → Script E N)}
    (hmem : .encode packet tag? next? ∈ rest) : job.IsStep := by
  generalize hjobs : job :: rest = jobs at h
  cases h with
  | calm hcalm =>
      rw [← hjobs] at hcalm
      exact (hcalm _ (List.mem_cons_of_mem _ hmem) True.intro).elim
  | looked hmore hopen =>
      obtain ⟨rfl, rfl⟩ := List.cons.inj hjobs
      exact (hmore _ hmem True.intro).elim
  | @writing steps other otherTag? otherNext? more hsteps hmore hopen =>
      cases steps with
      | nil =>
          obtain ⟨rfl, rfl⟩ := List.cons.inj hjobs
          exact (hmore _ hmem True.intro).elim
      | cons step steps =>
          obtain ⟨rfl, -⟩ := List.cons.inj hjobs
          exact (List.forall_mem_cons.mp hsteps).1

theorem length_le_one (h : Orderly spared session jobs) : (encodingIn jobs).length ≤ 1 := by
  cases h with
  | calm hjobs =>
      rw [encodingIn_calm hjobs]
      exact Nat.zero_le 1
  | looked hmore hopen =>
      rw [encodingIn, List.filterMap_cons]
      exact Nat.le_of_eq (congrArg (List.length · + 1) (encodingIn_calm hmore))
  | writing hsteps hmore hopen =>
      rw [encodingIn_append, encodingIn_calm fun job hjob => (hsteps job hjob).calm, encodingIn,
        List.filterMap_cons]
      exact Nat.le_of_eq (congrArg (List.length · + 1) (encodingIn_calm hmore))

/-- Where nobody could close the session, nothing is about to be encoded once it is closed. -/
theorem none_of_closed (h : Orderly spared session jobs) (hspared : spared)
    (hclosed : session.isClosed) : encodingIn jobs = [] := by
  cases h with
  | calm hjobs => exact encodingIn_calm hjobs
  | looked hmore hopen => exact (hopen hspared hclosed).elim
  | writing hsteps hmore hopen => exact ((hopen hspared).2 hclosed).elim

end Orderly

/-! ## Moves -/

def Move.isThread : Move E N → Bool
  | thread _ => true
  | _ => false

namespace Ledger

variable {ledger next : Ledger E N}

/-- A move encodes nothing and leaves the jobs alone, or begins a turn that encodes nothing yet, or
does a job. -/
theorem Entry.writing (h : ledger.Entry next) :
    next.record.frames = ledger.record.frames
        ∧ (next.jobs = ledger.jobs ∨ ledger.jobs = [] ∧ ∀ job ∈ next.jobs, ¬ job.IsEncode)
      ∨ ∃ job rest jobs, ledger.jobs = job :: rest ∧ next.jobs = jobs ++ rest
        ∧ Worked ledger.books ledger.record job jobs next.books next.record := by
  cases h with
  | job hjobs hworked => exact .inr ⟨_, _, _, hjobs, rfl, hworked⟩
  | start hidle hstarting hpreparing =>
      refine .inl ⟨rfl, .inr ⟨hidle.1, ?_⟩⟩
      intro job hjob
      obtain ⟨command, -, rfl⟩ := List.mem_map.mp hjob
      exact id
  | execute hidle hwaiting hchannel hworked =>
      exact .inl ⟨rfl, .inr ⟨hidle.1, hworked.calm_unless False.elim id⟩⟩
  | assign hidle hwaiting hjobs => exact .inl ⟨rfl, .inr ⟨hidle.1, calm_idle hjobs⟩⟩
  | stop reason hidle hwaiting hclosed =>
      exact .inl ⟨rfl, .inr ⟨hidle.1, List.forall_mem_singleton.mpr id⟩⟩
  | settleDone hidle hflushing hempty => exact .inl ⟨rfl, .inr ⟨hidle.1, calm_tell _ _⟩⟩
  | settleFailed fault hidle hflushing hdropped =>
      exact .inl ⟨rfl, .inr ⟨hidle.1,
        List.forall_mem_append.mpr ⟨calm_errands _, calm_bury _ _⟩⟩⟩
  | _ => exact .inl ⟨rfl, .inl rfl⟩

/-- What is encoded after the close was about to be encoded, and what is about to be encoded was so
before. -/
theorem Entry.late_frames (h : ledger.Entry next) (hclosed : ledger.books.lifecycle = .closed) :
    ∃ late, next.record.frames = ledger.record.frames ++ late
      ∧ (late.map Prod.fst ++ encodingIn next.jobs).Sublist (encodingIn ledger.jobs) := by
  rcases h.writing with ⟨hframes, hjobs⟩ | ⟨job, rest, jobs, hjobs, hnext, hworked⟩
  · refine ⟨[], hframes.trans (List.append_nil _).symm, ?_⟩
    rcases hjobs with hsame | ⟨-, hcalm⟩
    · rw [hsame]
      exact .refl _
    · rw [encodingIn_calm hcalm]
      exact List.nil_sublist _
  · obtain ⟨late, hframes, hlate⟩ := hworked.late_frames hclosed
    refine ⟨late, hframes, ?_⟩
    have hfirst : encodingIn ledger.jobs = job.encoding?.toList ++ encodingIn rest := by
      rw [hjobs, encodingIn, List.filterMap_cons]
      cases job.encoding? with
      | none => rfl
      | some tag? => rfl
    rw [hnext, hfirst, encodingIn_append, ← List.append_assoc]
    exact hlate.append (.refl _)

end Ledger

namespace World

variable (world : World E N)

/-- Whose packets are about to be encoded. -/
def writing : List (Option Tag) :=
  encodingIn world.jobs

/-- No thread moves between the look of a write and its frame. -/
def LeavesWrites : World E N → List (Move E N) → Prop
  | _, [] => True
  | world, move :: moves =>
    (world.writing ≠ [] → ¬ move.isThread) ∧ (world.step move).LeavesWrites moves

instance decidableLeavesWrites : ∀ (moves : List (Move E N)) (world : World E N),
    Decidable (world.LeavesWrites moves)
  | [], _ => .isTrue True.intro
  | move :: moves, world =>
    have := decidableLeavesWrites moves (world.step move)
    inferInstanceAs (Decidable (_ ∧ _))

theorem step_listener (move : Move E N) :
    (world.step move).session.listener = world.session.listener :=
  (world.step_turned move).listener_eq

theorem drive_calm (pick : Pick) (hjobs : world.jobs = []) :
    ∀ job ∈ (world.drive pick).jobs, ¬ job.IsEncode := by
  rcases (world.drive_entry pick).writing with
    ⟨-, hsame | ⟨-, hcalm⟩⟩ | ⟨job, rest, jobs, hfull, -⟩
  · rw [show (world.drive pick).jobs = world.jobs from hsame, hjobs]
    exact List.forall_mem_nil _
  · exact hcalm
  · cases hjobs.symm.trans hfull

theorem drive_job {world : World E N} {pick : Pick} {job : Job E N} {rest : List (Job E N)}
    (h : world.jobs = job :: rest) :
    world.drive pick
      = { world with
          session := (world.session.runJob job).2
          jobs := (world.session.runJob job).1 ++ rest
          record := world.record.note world.session job } := by
  rw [drive, h]

theorem step_orderly {spared : Prop} (move : Move E N)
    (h : Orderly spared world.session world.jobs)
    (hspares : spared → world.session.listener.SparesPhases)
    (hleaves : spared → world.writing ≠ [] → ¬ move.isThread) :
    Orderly spared (world.step move).session (world.step move).jobs := by
  cases move with
  | spawn program => exact h
  | thread index =>
      rw [step, runThread]
      split
      · exact h.elsewhere fun hspared hwriting => (hleaves hspared hwriting rfl).elim
      · exact h
  | attach options duplex =>
      rw [step, Session.attach]
      split
      · rename_i hattach
        split at hattach
        · cases hattach
          exact h.elsewhere fun _ _ => rfl
        · cases hattach
      · exact h
  | surround surroundings => exact h.elsewhere fun _ _ => rfl
  | transport duplex => exact h
  | drive pick =>
      rw [step]
      cases hjobs : world.jobs with
      | nil => exact .calm (world.drive_calm pick hjobs)
      | cons job rest =>
          rw [hjobs] at h
          rw [drive_job hjobs]
          exact h.work hspares

theorem run_orderly {spared : Prop} (moves : List (Move E N)) : ∀ world : World E N,
    Orderly spared world.session world.jobs →
    (spared → world.session.listener.SparesPhases ∧ world.LeavesWrites moves) →
    Orderly spared (world.run moves).session (world.run moves).jobs := by
  induction moves with
  | nil =>
      intro world h hspared
      exact h
  | cons move moves ih =>
      -- What is promised of all moves is promised of those that are left.
      intro world h hspared
      refine ih (world.step move) ?_ ?_
      · exact world.step_orderly move h (fun hgiven => (hspared hgiven).1)
          fun hgiven => (hspared hgiven).2.1
      · intro hgiven
        rw [world.step_listener move]
        exact ⟨(hspared hgiven).1, (hspared hgiven).2.2⟩

theorem run_late_frames (moves : List (Move E N)) (hclosed : world.session.lifecycle = .closed) :
    ∃ late, (world.run moves).record.frames = world.record.frames ++ late
      ∧ (late.map Prod.fst).Sublist world.writing := by
  have hrun := run_preserves (P := fun next : World E N => next.session.lifecycle = .closed
    ∧ ∃ late, next.record.frames = world.record.frames ++ late
      ∧ (late.map Prod.fst ++ next.writing).Sublist world.writing) moves ?_ world
    ⟨hclosed, [], (List.append_nil _).symm, .refl _⟩
  · obtain ⟨-, late, hframes, hlate⟩ := hrun
    exact ⟨late, hframes, (List.sublist_append_left _ _).trans hlate⟩
  · -- what was about to be encoded has been encoded, or still is about to be, or never will be
    rintro move - next ⟨hclosed, late, hframes, hlate⟩
    obtain ⟨more, hmore, hsub⟩ :=
      (next.step_entry move).late_frames hclosed
    refine ⟨run_closed [move] hclosed, late ++ more, ?_, ?_⟩
    · rw [← List.append_assoc, ← hframes]
      exact hmore
    · rw [List.map_append, List.append_assoc]
      exact (hsub.append_left _).trans hlate

/-! ## Those whose packets have no frame -/

/-- Who has heard that the session is closed. -/
def refusedBy (outcomes : List (Tag × Except Fault Unit)) : List Tag :=
  outcomes.filterMap fun
    | (tag, .error .closed) => some tag
    | _ => none

theorem count_outcomes (tag : Tag) (outcomes : List (Tag × Except Fault Unit))
    (h : ∀ outcome ∈ outcomes, outcome.2 = .ok () ∨ outcome.2 = .error .closed) :
    (outcomes.map Prod.fst).count tag
      = (cheered outcomes).count tag + (refusedBy outcomes).count tag := by
  induction outcomes with
  | nil => rfl
  | cons outcome rest ih =>
      obtain ⟨hfirst, hrest⟩ := List.forall_mem_cons.mp h
      obtain ⟨sender, result⟩ := outcome
      have ih := ih hrest
      rcases hfirst with hok | hlate
      · have hok : result = .ok () := hok
        rw [hok]
        show (sender :: rest.map Prod.fst).count tag
          = (sender :: cheered rest).count tag + (refusedBy rest).count tag
        rw [List.count_cons, List.count_cons, ih]
        omega
      · have hlate : result = .error .closed := hlate
        rw [hlate]
        show (sender :: rest.map Prod.fst).count tag
          = (cheered rest).count tag + (sender :: refusedBy rest).count tag
        rw [List.count_cons, List.count_cons, ih]
        omega

/-- The bytes of the frames, and nothing else, were handed to the transport or wait for it. -/
theorem run_bytes (registry : Registry E) (listener : Listener E N) (moves : List (Move E N)) :
    let world := (World.new registry listener).run moves
    world.record.handed ++ world.session.outgoing = bytesOf world.record.frames := by
  have hrun := run_preserves (P := fun world : World E N => world.ledger.Paced
    ∧ world.ledger.IsBacked) moves ?_ (World.new registry listener)
    ⟨paced_new registry listener, (ordered_new registry listener).backed⟩
  · exact hrun.2.bytes
  · rintro move - world ⟨hpaced, hbacked⟩
    have hentry := world.step_entry move
    exact ⟨hpaced.entry hentry, hbacked.entry hpaced hentry⟩

/-- Whoever was accepted has heard that the session is closed by the time it has ended, unless
there is a frame for the packet. -/
theorem run_refused (registry : Registry E) (listener : Listener E N) (moves : List (Move E N)) :
    let world := (World.new registry listener).run moves
    world.session.activity ≠ .crashed →
    world.session.activity.isOver ∨ world.session.activity = .detached ∧ world.session.isClosed →
    ∀ tag, world.accepted.count tag + world.record.refused.count tag
      ≤ (refusedBy world.outcomes).count tag + world.underWay.count tag
        + (tagsOn world.record.frames).count tag := by
  intro world hgoing hend tag
  have h : world.ledger.IsOrdered := run_ordered registry listener moves
  have hcheered : (cheered world.outcomes).count tag ≤ (tagsOn world.record.frames).count tag := by
    have hhoped := h.backed.hoped tag
    simp only [List.count_append] at hhoped
    have hsame : world.outcomes = world.ledger.books.completed := rfl
    rw [hsame]
    exact Nat.le_trans (by omega) hhoped
  have hsettled : (world.outcomes.map Prod.fst).count tag + world.underWay.count tag
      = world.accepted.count tag + world.record.refused.count tag :=
    run_settled registry listener moves hgoing hend tag
  rw [count_outcomes tag world.outcomes h.sound.books.told] at hsettled
  omega

/-- A closed session encodes at most one more packet: that of the write that stood between its look
and its frame when the session was closed.  There is no such write if no phase hook of the listener
closes a session and no thread moves while a write is under way.  The transport gets the bytes of
the frames and nothing else.  When the session has ended, everybody who was accepted and whose
packet had no frame when the session was closed, nor was the one under way, has heard that the
session is closed, or is about to hear it from a call that has not returned; this needs timers that
can be set. -/
theorem encoded_after_close (registry : Registry E) (listener : Listener E N)
    (before after : List (Move E N))
    (hclosed : ((World.new registry listener).run before).session.isClosed) :
    let start := World.new registry listener
    let closing := start.run before
    let world := closing.run after
    (∃ late, world.record.frames = closing.record.frames ++ late
        ∧ (late.map Prod.fst).Sublist closing.writing)
      ∧ closing.writing.length ≤ 1
      ∧ (listener.SparesPhases → start.LeavesWrites before → closing.writing = [])
      ∧ world.record.handed ++ world.session.outgoing = bytesOf world.record.frames
      ∧ (start.SetsTimers (before ++ after) →
          world.session.activity.isOver ∨ world.session.activity = .detached →
          ∀ tag, world.accepted.count tag + world.record.refused.count tag
            ≤ (refusedBy world.outcomes).count tag + world.underWay.count tag
              + (tagsOn closing.record.frames).count tag
              + (closing.writing.filterMap id).count tag) := by
  intro start closing world
  have hclosed : closing.session.lifecycle = .closed := Session.isClosed_iff.mp hclosed
  have hworld : world = start.run (before ++ after) := (start.run_append before after).symm
  obtain ⟨late, hframes, hlate⟩ := closing.run_late_frames after hclosed
  have horderly : Orderly (listener.SparesPhases ∧ start.LeavesWrites before) closing.session
      closing.jobs :=
    run_orderly before start (.calm (List.forall_mem_nil _)) id
  refine ⟨⟨late, hframes, hlate⟩, horderly.length_le_one, ?_, ?_, ?_⟩
  · intro hspares hleaves
    exact horderly.none_of_closed ⟨hspares, hleaves⟩ (Session.isClosed_iff.mpr hclosed)
  · rw [hworld]
    exact run_bytes registry listener (before ++ after)
  · intro htimers hend tag
    have hgoing := (setsTimers_iff registry listener (before ++ after)).mp htimers
    have hstays : world.session.isClosed := Session.isClosed_iff.mpr (run_closed after hclosed)
    have hrefused := run_refused registry listener (before ++ after) hgoing
    rw [← hworld] at hrefused
    have hcount := hrefused (hend.imp_right fun hdetached => ⟨hdetached, hstays⟩) tag
    -- the late frame is one of those that were about to be encoded
    have htags : (tagsOn late).Sublist (closing.writing.filterMap id) := by
      have hmap := hlate.filterMap id
      rw [List.filterMap_map] at hmap
      exact hmap
    have hlater := htags.count_le tag
    rw [hframes, tagsOn_append, List.count_append] at hcount
    omega

theorem encoded_after_close_of_racing :
    let start := World.new (.standard .client) Listener.idle
    let closing := start.run (racing.take 22)
    let world := closing.run (racing.drop 22)
    closing.session.isClosed ∧ start.LeavesWrites (racing.take 22) ∧ closing.writing = []
      ∧ world.record.frames = closing.record.frames
      ∧ world.record.handed ++ world.session.outgoing = bytesOf world.record.frames
      ∧ tagsOn closing.record.frames = ["first"] ∧ world.session.activity.isOver
      ∧ refusedBy world.outcomes = ["second"]
      ∧ ∀ tag, world.accepted.count tag + world.record.refused.count tag
        ≤ (refusedBy world.outcomes).count tag + world.underWay.count tag
          + (tagsOn closing.record.frames).count tag := by
  have hclosed : ((World.new (.standard .client) Listener.idle).run
      (racing.take 22)).session.isClosed := by decide +kernel
  have hleaves : (World.new (.standard .client) Listener.idle).LeavesWrites (racing.take 22) := by
    decide +kernel
  have hover : (((World.new (.standard .client) Listener.idle).run (racing.take 22)).run
      (racing.drop 22)).session.activity.isOver := by decide +kernel
  obtain ⟨⟨late, hframes, hlate⟩, -, hnone, hbytes, hrefused⟩ :=
    encoded_after_close (.standard .client) Listener.idle (racing.take 22) (racing.drop 22) hclosed
  have hwriting := hnone (fun _ => True.intro) hleaves
  rw [hwriting] at hlate hrefused
  rw [List.map_eq_nil_iff.mp (List.sublist_nil.mp hlate), List.append_nil] at hframes
  rw [List.take_append_drop] at hrefused
  exact ⟨hclosed, hleaves, hwriting, hframes, hbytes, by decide +kernel, hover, by decide +kernel,
    hrefused setsTimers_racing (.inl hover)⟩

def leaving : Listener Empty Unit :=
  { Listener.idle with onPhase := fun _ => .call (.close "left" false) fun _ => .done }

/-- A packet of another phase is sent and written. -/
def entering : List (Move Empty Unit) :=
  [.spawn (sending "late"), .thread 0, .attach (.standard .client) (.new 64)]
    ++ List.replicate 11 (.drive .input)

/-- The hook of a listener closes the session, and the packet goes to the transport all the same;
its sender hears that all is well.  And after a crash there is a packet without a frame whose sender
hears nothing when the session is closed. -/
theorem late_frame_and_lost_sender :
    (let start := World.new (.standard .client) leaving
      let closing := start.run entering
      let world := closing.run (List.replicate 5 (.drive .input))
      start.LeavesWrites entering ∧ closing.session.isClosed ∧ closing.record.frames = []
        ∧ world.record.frames = [(some "late", [1, 0])] ∧ world.record.handed = [1, 0]
        ∧ cheered world.outcomes = ["late"])
      ∧ (let world := (World.new (.standard .client) Listener.idle).run (crashing (.ofMillis 0))
        world.session.isClosed ∧ world.session.activity.isOver
          ∧ world.accepted = ["first", "lost"] ∧ tagsOn world.record.frames = ["first"]
          ∧ world.underWay = [] ∧ world.outcomes.map Prod.fst = ["first"]) := by
  decide +kernel

end World
end PhaseWire
