import PhaseWire.Proofs.Interleaving.Lone

/-
# What the listener gets to see after the close

A write and a packet look whether the session is open; a request for a
phase does not.  So the commands that the session took up at its start, or
takes off its channel, move it to other phases also when it has been closed
in between, and the listener hears of each phase after it has heard of the
close.  Besides, what was past its look when somebody else closed the
session is still done: a packet comes to the listener, a write moves the
session to the phase of its packet, and a change of phase that has begun is
shown and told.  Nothing else that the listener gets to see comes so late
(`callbacks_after_close`).
-/

namespace PhaseWire

variable {E N : Type} [CustomPackets E]

namespace World

variable (world : World E N)

/-- What a closed session still does: packets that its listener is given, commands that it carries
out, and changes of phase that it begins, for writes or because commands ask for them.  If it is
`deaf`, it leaves its channel alone. -/
structure Lingers (deaf : Prop) (world next : World E N) (packets : List (Packet E))
    (late : List (Command E)) (steps asks : List Phase) : Prop where
  received : next.received = world.received ++ packets
  handled : (packets ++ next.handling).Sublist world.handling
  executed : next.executed = world.executed ++ late
  taken : (late ++ (next.drained ++ next.session.channel)).Sublist
    (world.drained ++ world.session.channel)
  drained : deaf → (late ++ next.drained).Sublist world.drained
  told : world.entered <+: next.entered
  changes : next.changes = world.changes ++ (steps ++ asks)
  codec : next.session.codec.phase = (steps ++ asks).getLastD world.session.codec.phase
  approached : (steps ++ next.approaching).Sublist world.approaching
  asked : asks.Sublist (late.filterMap Command.phase?)
  /-- A write comes before all commands. -/
  first : asks ≠ [] → next.approaching = []

theorem Lingers.refl (deaf : Prop) : Lingers deaf world world [] [] [] [] :=
  ⟨(List.append_nil _).symm, .refl _, (List.append_nil _).symm, .refl _, fun _ => .refl _,
    List.prefix_rfl, (List.append_nil _).symm, rfl, .refl _, .refl _, fun h => (h rfl).elim⟩

/-- The writes of what comes later stand before the commands of what came first, since there are
none if there were such commands. -/
theorem Lingers.arrange {deaf deaf' : Prop} {world next last : World E N}
    {packets packets' : List (Packet E)} {late late' : List (Command E)}
    {steps asks steps' asks' : List Phase} (h : Lingers deaf world next packets late steps asks)
    (h' : Lingers deaf' next last packets' late' steps' asks') :
    (steps ++ asks) ++ (steps' ++ asks') = (steps ++ steps') ++ (asks ++ asks') := by
  by_cases hnone : asks = []
  · rw [hnone]
    simp only [List.append_nil, List.nil_append, List.append_assoc]
  · have hsteps := h'.approached
    rw [h.first hnone] at hsteps
    rw [(List.append_eq_nil_iff.mp (List.sublist_nil.mp hsteps)).1]
    simp only [List.append_nil, List.nil_append, List.append_assoc]

theorem Lingers.trans {deaf deaf' : Prop} {world next last : World E N}
    {packets packets' : List (Packet E)} {late late' : List (Command E)}
    {steps asks steps' asks' : List Phase} (h : Lingers deaf world next packets late steps asks)
    (h' : Lingers deaf' next last packets' late' steps' asks') :
    Lingers (deaf ∧ deaf') world last (packets ++ packets') (late ++ late') (steps ++ steps')
      (asks ++ asks') where
  received := by rw [h'.received, h.received, List.append_assoc]
  handled := by
    rw [List.append_assoc]
    exact (h'.handled.append_left packets).trans h.handled
  executed := by rw [h'.executed, h.executed, List.append_assoc]
  taken := by
    rw [List.append_assoc]
    exact (h'.taken.append_left late).trans h.taken
  drained := by
    rintro ⟨hdeaf, hdeaf'⟩
    rw [List.append_assoc]
    exact ((h'.drained hdeaf').append_left late).trans (h.drained hdeaf)
  told := h.told.trans h'.told
  changes := by rw [← h.arrange h', h'.changes, h.changes, List.append_assoc]
  codec := by
    rw [← h.arrange h', h'.codec, h.codec]
    simp only [List.getLastD_eq_getLast?, List.getLast?_append, Option.getD_or]
  approached := by
    rw [List.append_assoc]
    exact (h'.approached.append_left steps).trans h.approached
  asked := by
    rw [List.filterMap_append]
    exact h.asked.append h'.asked
  first hasks := by
    by_cases hnone : asks' = []
    · rw [hnone, List.append_nil] at hasks
      have happroached := h'.approached
      rw [h.first hasks] at happroached
      exact (List.append_eq_nil_iff.mp (List.sublist_nil.mp happroached)).2
    · exact h'.first hnone

/-- A move that does no job leaves the jobs alone, or begins a turn. -/
theorem step_undone {move : Move E N} (hnone : world.doing? move = none) :
    (world.step move).jobs = world.jobs ∨ world.jobs = [] ∧ (world.step move).Admits := by
  cases move with
  | spawn program => exact .inl rfl
  | thread index =>
      rw [step, runThread]
      split
      · exact .inl rfl
      · exact .inl rfl
  | attach options duplex =>
      rw [step, Session.attach]
      split
      · exact .inl rfl
      · exact .inl rfl
  | surround surroundings => exact .inl rfl
  | transport duplex => exact .inl rfl
  | drive pick =>
      cases hjobs : world.jobs with
      | nil => exact .inr ⟨rfl, world.drive_admits hjobs pick⟩
      | cons job rest =>
          rw [doing_job hjobs] at hnone
          cases hnone

theorem step_late_packets (move : Move E N) (hclosed : world.session.isClosed) :
    ∃ packets, (world.step move).received = world.received ++ packets
      ∧ (packets ++ (world.step move).handling).Sublist world.handling := by
  cases hdoing : world.doing? move with
  | none =>
      refine ⟨[], ?_, ?_⟩
      · rw [received, world.step_course hdoing, List.append_nil]
        rfl
      · rcases world.step_undone hdoing with hsame | ⟨hjobs, ⟨packet, hpacket⟩ | hout⟩
        · rw [handling, hsame]
          exact .refl _
        · rw [handling, hpacket]
          exact List.nil_sublist _
        · rw [handling, handlingIn_outbound hout]
          exact List.nil_sublist _
  | some job =>
      obtain ⟨channel, hsession, hjobs⟩ := world.step_doing hdoing
      have hleft : (world.step move).handling = handlingIn world.jobs.tail := by
        rw [handling, hjobs, handlingIn_append]
        rcases { world.session with channel }.runJob_inbound job with ⟨-, -, hopen, -⟩ | hout
        · exact (hopen hclosed).elim
        · rw [handlingIn_outbound hout, List.nil_append]
      have hsteered := { world.session with channel }.runJob_steered job
      rw [← hsession] at hsteered
      rcases hsteered.received with hsame | ⟨packet, rfl, hmore⟩
      · refine ⟨[], hsame.trans (List.append_nil _).symm, ?_⟩
        rw [hleft]
        exact (List.tail_sublist world.jobs).filterMap _
      · refine ⟨[packet], hmore, ?_⟩
        rcases world.doing_first hdoing with hfirst | ⟨-, command, hcommand⟩
        · rw [hleft, handling, hfirst]
          exact .refl _
        · cases hcommand

theorem step_registry (move : Move E N) :
    (world.step move).session.registry = world.session.registry := by
  rcases world.step_steered move with ⟨hsame, -⟩ | ⟨job, jobs, -, -, hsteered⟩
  · exact congrArg (·.packets.registry) hsame
  · exact hsteered.registry_eq

/-- The session goes on with its first turn, and ends. -/
def ending : List (Move Empty Unit) :=
  List.replicate 9 (.drive .stop)

end World
end PhaseWire
