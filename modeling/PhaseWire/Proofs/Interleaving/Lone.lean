import PhaseWire.Proofs.Interleaving.Phases

/-
# What is past its look

A packet that came in is looked at twice: a closed session drops it, and an
open one has it handled by the next job.  A write likewise looks first and
then moves to the phase of its packet.  So somebody else may close the
session in between.  Such a packet stands alone among the jobs (`IsLone`),
and so does such a write (`Orderly`); there is one of them at most, and
none if nobody moved meanwhile.

A command is in hand before it looks at anything.  A closed session has
those in hand that it took up at its start (`Entry.drained`), and comes by
others only from its channel (`Entry.late_commands`).
-/

namespace PhaseWire

variable {E N : Type}

def Command.phase? : Command E → Option Phase
  | setPhase phase => some phase
  | _ => none

namespace Job

/-- The phase that a program of the listener asks for. -/
def wished? : Job E N → Option Phase
  | script (.act (.setPhase phase) _) => some phase
  | _ => none

/-- The packet that a job is about to give to the listener, past the look at the session. -/
def handled? : Job E N → Option (Packet E)
  | handle packet => some packet
  | _ => none

/-- The phase of the packet that a write is about to move to, past its look at the session. -/
def approaching? [CustomPackets E] (registry : Registry E) : Job E N → Option Phase
  | approach packet _ _ => (registry.ofPacket packet).toOption.map Descriptor.phase
  | _ => none

/-- A job of a packet that came in. -/
def IsInbound : Job E N → Prop
  | receive _ | handle _ => True
  | _ => False

end Job

def handlingIn (jobs : List (Job E N)) : List (Packet E) :=
  jobs.filterMap Job.handled?

@[simp] theorem handlingIn_append (jobs more : List (Job E N)) :
    handlingIn (jobs ++ more) = handlingIn jobs ++ handlingIn more :=
  List.filterMap_append

theorem handlingIn_outbound {jobs : List (Job E N)} (h : ∀ job ∈ jobs, ¬ job.IsInbound) :
    handlingIn jobs = [] := by
  refine List.filterMap_eq_nil_iff.mpr fun job hjob => ?_
  have hout := h job hjob
  cases job with
  | handle packet => exact (hout True.intro).elim
  | _ => rfl

theorem outbound_errands (errands : List (Errand E N)) :
    ∀ job ∈ errands.map Job.errand, ¬ job.IsInbound := by
  intro job hjob
  obtain ⟨errand, -, rfl⟩ := List.mem_map.mp hjob
  exact id

theorem outbound_resume (next? : Option (Reply → Script E N)) (result : Except Fault Unit) :
    ∀ job ∈ resume next? result, ¬ job.IsInbound := by
  cases next? with
  | none => exact List.forall_mem_nil _
  | some next => exact List.forall_mem_singleton.mpr id

theorem outbound_tell (tags : List Tag) (result : Except Fault Unit) :
    ∀ job ∈ World.tell (E := E) (N := N) tags result, ¬ job.IsInbound := by
  intro job hjob
  obtain ⟨tag, -, rfl⟩ := List.mem_map.mp hjob
  exact id

theorem outbound_bury (flush : Flush) (fault : Fault) :
    ∀ job ∈ World.bury (E := E) (N := N) flush fault, ¬ job.IsInbound :=
  List.forall_mem_append.mpr ⟨outbound_tell _ _, List.forall_mem_singleton.mpr id⟩

variable [CustomPackets E]

/-- The phases that writes are about to move to, past their look at the session. -/
def approachingIn (registry : Registry E) (jobs : List (Job E N)) : List Phase :=
  jobs.filterMap (Job.approaching? registry)

@[simp] theorem approachingIn_append (registry : Registry E) (jobs more : List (Job E N)) :
    approachingIn registry (jobs ++ more)
      = approachingIn registry jobs ++ approachingIn registry more :=
  List.filterMap_append

theorem approachingIn_calm (registry : Registry E) {jobs : List (Job E N)}
    (h : ∀ job ∈ jobs, ¬ job.IsEncode) : approachingIn registry jobs = [] := by
  refine List.filterMap_eq_nil_iff.mpr fun job hjob => ?_
  have hcalm := h job hjob
  cases job with
  | approach packet tag? next? => exact (hcalm True.intro).elim
  | _ => rfl

/-! ## Packets -/

namespace Session

variable (session : Session E N)

theorem outbound_phase (phase : Phase) :
    ∀ job ∈ (session.beginPhase phase).1, ¬ job.IsInbound := by
  rw [beginPhase_jobs]
  split
  · exact List.forall_mem_nil _
  · exact List.forall_mem_singleton.mpr id

theorem outbound_command (command : Command E) :
    ∀ job ∈ (session.runJob (.execute command)).1, ¬ job.IsInbound := by
  rw [runJob]
  cases command with
  | send packet tag? => exact List.forall_mem_singleton.mpr id
  | setPhase phase =>
      rw [runCommand]
      split
      · exact outbound_phase _ phase
      · exact List.forall_mem_nil _
  | setThreshold threshold => exact List.forall_mem_nil _
  | encrypt key => exact List.forall_mem_nil _

theorem outbound_write (packet : Packet E) (tag? : Option Tag)
    (next? : Option (Reply → Script E N)) :
    ∀ job ∈ session.beginWrite packet tag? next?, ¬ job.IsInbound := by
  rw [beginWrite]
  split
  · exact List.forall_mem_cons.mpr ⟨id, outbound_resume next? _⟩
  · exact List.forall_mem_singleton.mpr id

theorem outbound_approach (packet : Packet E) (tag? : Option Tag)
    (next? : Option (Reply → Script E N)) :
    ∀ job ∈ (session.runApproach packet tag? next?).1, ¬ job.IsInbound := by
  rw [runApproach]
  split
  · exact outbound_resume next? _
  · rename_i descriptor hdescriptor
    refine List.forall_mem_append.mpr ⟨?_, List.forall_mem_singleton.mpr id⟩
    rw [beginApproach]
    split
    · exact List.forall_mem_nil _
    · exact outbound_phase _ descriptor.phase

theorem outbound_encode (packet : Packet E) (tag? : Option Tag)
    (next? : Option (Reply → Script E N)) :
    ∀ job ∈ (session.runEncode packet tag? next?).1, ¬ job.IsInbound := by
  rw [runEncode]
  split
  · exact outbound_resume next? _
  · exact List.forall_mem_cons.mpr
      ⟨id, List.forall_mem_cons.mpr ⟨id, outbound_resume next? _⟩⟩

theorem outbound_script (rest : Script E N) :
    ∀ job ∈ (session.runScriptStep rest).1, ¬ job.IsInbound := by
  cases rest with
  | done result =>
      cases result with
      | ok _ => exact List.forall_mem_nil _
      | error fault => exact List.forall_mem_singleton.mpr id
  | note note next => exact List.forall_mem_singleton.mpr id
  | look next => exact List.forall_mem_singleton.mpr id
  | act action next =>
      rw [runScriptStep]
      cases action with
      | setPhase phase =>
          rw [runAction]
          split
          · exact List.forall_mem_append.mpr
              ⟨session.outbound_phase phase, List.forall_mem_singleton.mpr id⟩
          · exact List.forall_mem_singleton.mpr id
      | call call =>
          exact List.forall_mem_append.mpr
            ⟨outbound_errands _, List.forall_mem_singleton.mpr id⟩
      | _ => exact List.forall_mem_singleton.mpr id

theorem outbound_handle (packet : Packet E) :
    ∀ job ∈ (session.runHandle packet).1, ¬ job.IsInbound := by
  unfold runHandle
  dsimp only
  split
  · exact List.forall_mem_singleton.mpr id
  · split
    · exact List.forall_mem_nil _
    · exact List.forall_mem_singleton.mpr id
    · exact List.forall_mem_singleton.mpr id

theorem outbound_tick : ∀ job ∈ session.runTick.1, ¬ job.IsInbound := by
  rw [runTick]
  split
  · exact List.forall_mem_nil _
  · refine List.forall_mem_append.mpr ⟨outbound_errands _, ?_⟩
    split
    · exact List.forall_mem_singleton.mpr id
    · exact List.forall_mem_nil _

theorem runJob_inbound (job : Job E N) :
    (∃ packet, job = .receive packet ∧ ¬ session.isClosed
        ∧ (session.runJob job).1 = [.handle packet])
      ∨ ∀ left ∈ (session.runJob job).1, ¬ left.IsInbound := by
  cases job with
  | receive packet =>
      by_cases hclosed : session.isClosed
      · right
        rw [runJob, if_pos hclosed]
        exact List.forall_mem_nil _
      · exact .inl ⟨packet, rfl, hclosed, if_neg hclosed⟩
  | errand task => exact .inr (outbound_errands _)
  | execute command => exact .inr (session.outbound_command command)
  | write packet tag? next? => exact .inr (session.outbound_write packet tag? next?)
  | approach packet tag? next? => exact .inr (session.outbound_approach packet tag? next?)
  | encode packet tag? next? => exact .inr (session.outbound_encode packet tag? next?)
  | enter phase => exact .inr (List.forall_mem_singleton.mpr id)
  | tell phase => exact .inr (List.forall_mem_singleton.mpr id)
  | complete tag? result => exact .inr (List.forall_mem_nil _)
  | script rest => exact .inr (session.outbound_script rest)
  | handle packet => exact .inr (session.outbound_handle packet)
  | fail fault => exact .inr (List.forall_mem_singleton.mpr id)
  | failIfOpen fault =>
      right
      rw [runJob]
      split
      · exact List.forall_mem_nil _
      · exact List.forall_mem_singleton.mpr id
  | tick => exact .inr session.outbound_tick
  | probe => exact .inr (List.forall_mem_singleton.mpr id)

end Session

/-- The jobs of a packet stand alone; and where nobody may close the session meanwhile, it is open
when its listener is about to be given the packet. -/
inductive IsLone (spared : Prop) (session : Session E N) : List (Job E N) → Prop
  | outbound {jobs : List (Job E N)} : (∀ job ∈ jobs, ¬ job.IsInbound) → IsLone spared session jobs
  | receive (packet : Packet E) : IsLone spared session [.receive packet]
  | handle (packet : Packet E) : (spared → ¬ session.isClosed) →
      IsLone spared session [.handle packet]

namespace IsLone

variable {spared : Prop} {session next : Session E N} {jobs : List (Job E N)}

/-- Somebody else changes the session; where nobody may, it stays open. -/
theorem elsewhere (h : IsLone spared session jobs)
    (hnext : spared → handlingIn jobs ≠ [] → next.isClosed = session.isClosed) :
    IsLone spared next jobs := by
  cases h with
  | outbound hout => exact .outbound hout
  | receive packet => exact .receive packet
  | handle packet hopen =>
      refine .handle packet fun h => ?_
      rw [hnext h (List.cons_ne_nil _ _)]
      exact hopen h

theorem work {job : Job E N} {rest : List (Job E N)} (h : IsLone spared session (job :: rest)) :
    IsLone spared (session.runJob job).2 ((session.runJob job).1 ++ rest) := by
  generalize hjobs : job :: rest = jobs at h
  cases h with
  | outbound hout =>
      rw [← hjobs] at hout
      obtain ⟨hfirst, hrest⟩ := List.forall_mem_cons.mp hout
      rcases session.runJob_inbound job with ⟨packet, rfl, -⟩ | hleft
      · exact (hfirst True.intro).elim
      · exact .outbound (List.forall_mem_append.mpr ⟨hleft, hrest⟩)
  | receive packet =>
      obtain ⟨rfl, rfl⟩ := List.cons.inj hjobs
      rw [List.append_nil]
      rcases session.runJob_inbound (.receive packet) with ⟨_, hsame, hopen, hleft⟩ | hleft
      · rw [hleft]
        exact .handle _ fun _ => hopen
      · exact .outbound hleft
  | handle packet hopen =>
      obtain ⟨rfl, rfl⟩ := List.cons.inj hjobs
      rw [List.append_nil]
      exact .outbound (session.outbound_handle packet)

theorem length_le_one (h : IsLone spared session jobs) : (handlingIn jobs).length ≤ 1 := by
  cases h with
  | outbound hout =>
      rw [handlingIn_outbound hout]
      exact Nat.zero_le 1
  | receive packet => exact Nat.zero_le 1
  | handle packet hopen => exact Nat.le_refl 1

/-- Where nobody could close the session, no packet is past the look when it is closed. -/
theorem none_of_closed (h : IsLone spared session jobs) (hspared : spared)
    (hclosed : session.isClosed) : handlingIn jobs = [] := by
  cases h with
  | outbound hout => exact handlingIn_outbound hout
  | receive packet => rfl
  | handle packet hopen => exact (hopen hspared hclosed).elim

end IsLone

section

variable {fate : Fate E N} {course next : Course E} {job : Job E N} {jobs : List (Job E N)}

theorem Steered.received (h : Steered fate course job jobs next) :
    next.received = course.received
      ∨ ∃ packet, job = .handle packet ∧ next.received = course.received ++ [packet] := by
  cases h with
  | receive packet => exact .inr ⟨packet, rfl, rfl⟩
  | _ => exact .inl rfl

theorem Steered.told (h : Steered fate course job jobs next) :
    course.entered <+: next.entered := by
  cases h with
  | tell phase => exact List.prefix_append _ _
  | _ => exact List.prefix_rfl

end

section

variable {books next : Books E} {record record' : Record} {job : Job E N} {jobs : List (Job E N)}

theorem Handled.executed_eq {dropped : List (Command E)} (h : Handled books dropped next) :
    next.executed = books.executed := by
  cases h with
  | _ => rfl

theorem Worked.executed (h : Worked books record job jobs next record') :
    next.executed = books.executed ++ job.inHand?.toList ∧ inHand jobs = [] := by
  cases h with
  | abandon command => exact ⟨(List.append_nil _).symm, rfl⟩
  | call hidle hjobs hhandled =>
      have hnone : job.inHand? = none := by
        cases job with
        | execute command => exact hidle.elim
        | _ => rfl
      rw [hhandled.executed_eq, hnone, inHand_append, inHand_errands, inHand_idle hjobs]
      exact ⟨(List.append_nil _).symm, rfl⟩
  | send packet tag? => exact ⟨rfl, rfl⟩
  | change htag hjobs => exact ⟨rfl, inHand_idle hjobs⟩
  | late packet tag? next? hlate =>
      refine ⟨(List.append_nil _).symm, ?_⟩
      show inHand (resume next? _) = []
      exact inHand_idle (idle_resume next? _)
  | timely packet tag? next? hopen => exact ⟨(List.append_nil _).symm, rfl⟩
  | strange packet tag? next? fault hpacket =>
      exact ⟨(List.append_nil _).symm, inHand_idle (idle_resume next? _)⟩
  | approach packet tag? next? hjobs =>
      refine ⟨(List.append_nil _).symm, ?_⟩
      rw [inHand_append, inHand_idle hjobs]
      rfl
  | encoded packet tag? next? wire =>
      exact ⟨(List.append_nil _).symm, inHand_idle (idle_resume next? _)⟩
  | broken packet tag? next? fault =>
      refine ⟨(List.append_nil _).symm, ?_⟩
      show inHand (resume next? _) = []
      exact inHand_idle (idle_resume next? _)
  | complete tag? result => exact ⟨(List.append_nil _).symm, rfl⟩

/-- Of a closed session no write gets past its look. -/
theorem Worked.approaching (h : Worked books record job jobs next record')
    (hclosed : books.lifecycle = .closed) (registry : Registry E) :
    approachingIn registry jobs = [] := by
  cases h with
  | abandon command => rfl
  | call hidle hjobs hhandled =>
      rw [approachingIn_append, approachingIn_calm registry (calm_errands _),
        approachingIn_calm registry (calm_idle hjobs)]
      rfl
  | send packet tag? => rfl
  | change htag hjobs => exact approachingIn_calm registry (calm_idle hjobs)
  | late packet tag? next? hlate =>
      exact approachingIn_calm registry
        (List.forall_mem_cons.mpr ⟨id, calm_idle (idle_resume next? _)⟩)
  | timely packet tag? next? hopen => exact (hopen hclosed).elim
  | strange packet tag? next? fault hpacket =>
      exact approachingIn_calm registry (calm_idle (idle_resume next? _))
  | approach packet tag? next? hjobs =>
      rw [approachingIn_append, approachingIn_calm registry (calm_idle hjobs)]
      rfl
  | encoded packet tag? next? wire =>
      exact approachingIn_calm registry (calm_idle (idle_resume next? _))
  | broken packet tag? next? fault =>
      exact approachingIn_calm registry (List.forall_mem_cons.mpr
        ⟨id, List.forall_mem_cons.mpr ⟨id, calm_idle (idle_resume next? _)⟩⟩)
  | complete tag? result => rfl

theorem Worked.channel_eq (h : Worked books record job jobs next record')
    (hclosed : books.lifecycle = .closed) : next.channel = books.channel := by
  cases h with
  | call hidle hjobs hhandled =>
      refine hhandled.channel_eq ?_
      rw [hclosed]
      exact Lifecycle.noConfusion
  | _ => rfl

end

namespace Ledger

variable {ledger next : Ledger E N}

theorem Entry.drained (h : ledger.Entry next)
    (hstart : inHand ledger.jobs ≠ [] → ledger.sequel? = some (.flush .firstWait))
    (hnext : inHand next.jobs ≠ []) : next.sequel? = some (.flush .firstWait) := by
  have hidle : ledger.jobs = [] → inHand ledger.jobs = [] := fun h => congrArg inHand h
  cases h with
  | @job job rest jobs books record hjobs hworked =>
      obtain ⟨-, hnone⟩ := hworked.executed
      refine hstart fun hempty => hnext ?_
      rw [hjobs, inHand, List.filterMap_cons] at hempty
      rw [inHand_append, hnone]
      cases hhand : job.inHand? with
      | none =>
          rw [hhand] at hempty
          exact hempty
      | some command =>
          rw [hhand] at hempty
          cases hempty
  | start hidle hstarting hpreparing => rfl
  | execute hidle hwaiting hchannel hworked => exact (hnext hworked.executed.2).elim
  | assign hidle hwaiting hjobs => exact (hnext (inHand_idle hjobs)).elim
  | stop reason hidle hwaiting hclosed => exact (hnext rfl).elim
  | settleDone hidle hflushing hempty => exact (hnext (inHand_tell _ _)).elim
  | settleFailed fault hidle hflushing hdropped =>
      refine (hnext ?_).elim
      rw [inHand_append, inHand_errands, inHand_bury]
      rfl
  | flush hdue htags hafterwards => exact (hnext (hidle hdue.1)).elim
  | proceed hthrough hleads htimer => exact (hnext (hidle (Paced.jobs_of_through hthrough))).elim
  | crash hsets => exact (hnext (hidle (Paced.jobs_of_timer hsets))).elim
  | _ => exact hstart hnext

end Ledger

/-! ## Moves -/

namespace World

variable (world : World E N)

/-- The packets that the listener is about to be given, past the look at the session. -/
def handling : List (Packet E) :=
  handlingIn world.jobs

/-- The phases that writes are about to move to, past their look at the session. -/
def approaching : List Phase :=
  approachingIn world.session.registry world.jobs

/-- No program of the listener moves the session to another phase. -/
def KeepsPhase : World E N → List (Move E N) → Prop
  | _, [] => True
  | world, move :: moves =>
    ((world.doing? move).bind Job.wished? ≠ none →
        (world.step move).session.codec.phase = world.session.codec.phase)
      ∧ (world.step move).KeepsPhase moves

instance decidableKeepsPhase : ∀ (moves : List (Move E N)) (world : World E N),
    Decidable (world.KeepsPhase moves)
  | [], _ => .isTrue True.intro
  | move :: moves, world =>
    have := decidableKeepsPhase moves (world.step move)
    inferInstanceAs (Decidable (_ ∧ _))

/-- A packet that came in is all that is to be done, or there is none. -/
def Admits : Prop :=
  (∃ packet, world.jobs = [.receive packet]) ∨ ∀ job ∈ world.jobs, ¬ job.IsInbound

section

variable (hjobs : world.jobs = [])
include hjobs

theorem admits_idle : world.Admits := by
  rw [Admits, hjobs]
  exact .inr (List.forall_mem_nil _)

theorem takeFrame_admits {session : Session E N} {duplex : Duplex} (incoming : Bytes) :
    ({ world with session, duplex }.takeFrame incoming).Admits := by
  rw [takeFrame]
  dsimp only
  split
  · exact .inl ⟨_, rfl⟩
  · exact .inr (List.forall_mem_singleton.mpr id)
  · split
    · exact .inr (List.forall_mem_singleton.mpr id)
    · exact admits_idle _ hjobs

theorem waitTurn_admits (pick : Pick) : (world.waitTurn pick).Admits := by
  have hstay := world.admits_idle hjobs
  cases pick with
  | stop =>
      rw [waitTurn]
      split
      · exact .inr (List.forall_mem_singleton.mpr id)
      · exact hstay
  | command =>
      rw [waitTurn]
      split
      · exact .inr (Session.outbound_command _ _)
      · exact hstay
  | tick =>
      rw [waitTurn]
      split
      · split
        · exact .inr (List.forall_mem_singleton.mpr id)
        · exact admits_idle _ hjobs
      · exact hstay
  | input =>
      rw [waitTurn]
      split
      · exact hstay
      · split
        · exact world.takeFrame_admits hjobs []
        · rw [takeInput]
          split
          · exact world.takeFrame_admits hjobs _
          · exact hstay
          · exact world.takeFrame_admits hjobs _
          · exact .inr (List.forall_mem_singleton.mpr id)

theorem flushTurn_admits (flush : Flush) (pick : Pick) : (world.flushTurn flush pick).Admits := by
  have hstay := world.admits_idle hjobs
  have hfailed : ∀ fault, (world.settleFailed flush fault).Admits :=
    fun fault => .inr (outbound_bury flush fault)
  have hwrite : (world.flushWrite flush).Admits := by
    rw [flushWrite]
    split
    · split
      · exact hfailed _
      · exact .inr (outbound_tell flush.tags _)
      · exact hstay
    · split
      · exact hfailed _
      · exact admits_idle _ hjobs
  cases pick with
  | stop =>
      rw [flushTurn]
      split
      · exact hfailed .closed
      · exact hstay
  | tick =>
      rw [flushTurn]
      split
      · rw [settleLate]
        split
        · exact hfailed .timeout
        · exact .inr (List.forall_mem_cons.mpr ⟨id, outbound_bury flush .timeout⟩)
      · exact hstay
  | command => exact hwrite
  | input => exact hwrite

theorem shutdownTurn_admits (deadline : Instant) (pick : Pick) :
    (world.shutdownTurn deadline pick).Admits := by
  have hstay := world.admits_idle hjobs
  unfold shutdownTurn
  split
  · split
    · exact hstay
    · exact hstay
  · split
    · split
      · exact hstay
      · exact hstay
    · split
      · exact hstay
      · exact admits_idle _ hjobs

theorem conclude_admits (sequel : Sequel) : (world.conclude sequel).Admits := by
  cases sequel with
  | flush afterwards => exact admits_idle _ hjobs
  | goOn afterwards => exact admits_idle _ hjobs
  | dropLeft =>
      rw [conclude]
      split
      · exact admits_idle _ hjobs
      · exact admits_idle _ hjobs

theorem drive_admits (pick : Pick) : (world.drive pick).Admits := by
  rw [drive]
  split
  · rename_i job rest hfull
    cases hjobs.symm.trans hfull
  · exact world.conclude_admits hjobs _
  · rw [turn]
    split
    · exact world.admits_idle hjobs
    · exact world.admits_idle hjobs
    · exact world.admits_idle hjobs
    · rw [startTurn]
      split
      · right
        intro job hjob
        obtain ⟨command, -, rfl⟩ := List.mem_map.mp hjob
        exact id
      · exact admits_idle _ hjobs
    · exact world.waitTurn_admits hjobs pick
    · exact world.flushTurn_admits hjobs _ pick
    · exact world.shutdownTurn_admits hjobs _ pick

end

theorem step_lone {spared : Prop} (move : Move E N) (h : IsLone spared world.session world.jobs)
    (hleaves : spared → world.handling ≠ [] → ¬ move.isThread) :
    IsLone spared (world.step move).session (world.step move).jobs := by
  cases move with
  | spawn program => exact h
  | thread index =>
      rw [step, runThread]
      split
      · exact h.elsewhere fun hspared hhandling => (hleaves hspared hhandling rfl).elim
      · exact h
  | attach options duplex =>
      rw [step, Session.attach]
      split
      · rename_i hattach
        split at hattach
        · cases hattach
          exact h.elsewhere fun _ _ => rfl
        · cases hattach
      · exact h
  | surround surroundings => exact h.elsewhere fun _ _ => rfl
  | transport duplex => exact h
  | drive pick =>
      rw [step]
      cases hjobs : world.jobs with
      | nil =>
          rcases world.drive_admits hjobs pick with ⟨packet, hpacket⟩ | hout
          · rw [hpacket]
            exact .receive packet
          · exact .outbound hout
      | cons job rest =>
          rw [hjobs] at h
          rw [drive_job hjobs]
          exact h.work

end World
end PhaseWire
