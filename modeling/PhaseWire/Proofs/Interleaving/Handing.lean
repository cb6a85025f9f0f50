import PhaseWire.Proofs.Interleaving.World

/-
# What the transport takes

The record of a run says which bytes went to the transport and how many
frames there were when a flush last succeeded.  Here it is measured against
the transport: what a session writes is what its pipe holds more of after
one of the session's own moves (`taken?`), and a flush succeeds when the
session has nothing left to write and the transport says that all is on
its way (`run_flushed`).
-/

namespace PhaseWire

variable {E N : Type} [CustomPackets E]

namespace Session

theorem proceed_held (session : Session E N) (duplex : Duplex) (afterwards : Afterwards) :
    (session.proceed duplex afterwards).2.outgoing.held = duplex.outgoing.held := by
  cases afterwards with
  | firstWait =>
      rw [proceed, firstWait]
      split
      · rfl
      · rfl
  | wait => rfl
  | shutdown => rfl

theorem beginFlush_held (session : Session E N) (duplex : Duplex) (afterwards : Afterwards) :
    (session.beginFlush duplex afterwards).2.outgoing.held = duplex.outgoing.held := by
  rw [beginFlush]
  split
  · exact proceed_held _ duplex afterwards
  · rfl

end Session

namespace World

/-- The bytes that the transport takes in a move of the session. -/
def taken? (world : World E N) : Move E N → Option Bytes
  | .drive pick =>
    some ((world.drive pick).duplex.outgoing.held.drop world.duplex.outgoing.held.length)
  | _ => none

/-- Nothing is left to write, and what was written is on its way. -/
def IsPassedOn (world : World E N) : Prop :=
  world.session.outgoing = [] ∧ world.duplex.flush = .ok true

variable (world : World E N)

theorem note_leaves (session : Session E N) (record : Record) (job : Job E N) :
    (record.note session job).handed = record.handed
      ∧ (record.note session job).flushed = record.flushed
      ∧ record.frames <+: (record.note session job).frames := by
  cases job with
  | write packet tag? next? =>
      rw [Record.note]
      split
      · exact ⟨rfl, rfl, List.prefix_rfl⟩
      · exact ⟨rfl, rfl, List.prefix_rfl⟩
  | encode packet tag? next? =>
      rw [Record.note]
      split
      · exact ⟨rfl, rfl, List.prefix_append _ _⟩
      · exact ⟨rfl, rfl, List.prefix_rfl⟩
  | _ => exact ⟨rfl, rfl, List.prefix_rfl⟩

/-- Neither the record nor what the session writes is touched. -/
def Leaves (world next : World E N) : Prop :=
  next.duplex.outgoing.held = world.duplex.outgoing.held ∧ next.record = world.record

theorem startTurn_leaves : world.Leaves world.startTurn := by
  rw [startTurn]
  split
  · exact ⟨rfl, rfl⟩
  · exact ⟨(world.session.count Metrics.established).proceed_held world.duplex .firstWait, rfl⟩

theorem takeFrame_duplex (incoming : Bytes) :
    (world.takeFrame incoming).duplex = world.duplex
      ∧ (world.takeFrame incoming).record = world.record := by
  rw [takeFrame]
  split
  · exact ⟨rfl, rfl⟩
  · exact ⟨rfl, rfl⟩
  · dsimp only
    split
    · exact ⟨rfl, rfl⟩
    · exact ⟨rfl, rfl⟩

theorem read_held {duplex next : Duplex} {most : Nat} {intake : Intake}
    (h : duplex.read most = (intake, next)) : next.outgoing.held = duplex.outgoing.held := by
  cases h
  rfl

theorem takeInput_leaves : world.Leaves world.takeInput := by
  rw [takeInput]
  split
  · rename_i taken duplex hread
    obtain ⟨hduplex, hrecord⟩ := takeFrame_duplex { world with
      session := { world.session with
        inputEnded := false
        readRoom := world.session.readLimit - taken.length }
      duplex } taken
    exact ⟨(congrArg (·.outgoing.held) hduplex).trans (read_held hread), hrecord⟩
  · exact ⟨rfl, rfl⟩
  · rename_i duplex hread
    obtain ⟨hduplex, hrecord⟩ := takeFrame_duplex { world with
      session := { world.session with inputEnded := true }
      duplex } []
    exact ⟨(congrArg (·.outgoing.held) hduplex).trans (read_held hread), hrecord⟩
  · rename_i fault duplex hread
    exact ⟨read_held hread, rfl⟩

theorem waitTurn_leaves (pick : Pick) : world.Leaves (world.waitTurn pick) := by
  cases pick with
  | stop =>
      rw [waitTurn]
      split
      · exact ⟨rfl, rfl⟩
      · exact ⟨rfl, rfl⟩
  | command =>
      rw [waitTurn]
      split
      · exact ⟨rfl, rfl⟩
      · exact ⟨rfl, rfl⟩
  | tick =>
      rw [waitTurn]
      split
      · split
        · exact ⟨rfl, rfl⟩
        · exact ⟨rfl, rfl⟩
      · exact ⟨rfl, rfl⟩
  | input =>
      rw [waitTurn]
      split
      · exact ⟨rfl, rfl⟩
      · split
        · obtain ⟨hduplex, hrecord⟩ := world.takeFrame_duplex []
          exact ⟨congrArg (·.outgoing.held) hduplex, hrecord⟩
        · exact world.takeInput_leaves

theorem conclude_leaves (sequel : Sequel) : world.Leaves (world.conclude sequel) := by
  cases sequel with
  | flush afterwards => exact ⟨world.session.beginFlush_held world.duplex afterwards, rfl⟩
  | goOn afterwards =>
      exact ⟨{ world.session with reading := true }.proceed_held world.duplex afterwards, rfl⟩
  | dropLeft =>
      rw [conclude]
      split
      · exact ⟨rfl, rfl⟩
      · exact ⟨world.session.beginFlush_held world.duplex .shutdown, rfl⟩

/-! ## What a move hands over -/

/-- What a move of the session has to do with its transport. -/
inductive Hands (world next : World E N) : Prop
  /-- Nothing is written, though a frame may have been encoded. -/
  | nothing : next.duplex.outgoing.held = world.duplex.outgoing.held →
      next.record.handed = world.record.handed → next.record.flushed = world.record.flushed →
      world.record.frames <+: next.record.frames → Hands world next
  | bytes (taken : Bytes) : next.duplex.outgoing.held = world.duplex.outgoing.held ++ taken →
      next.record = world.record.hand taken → Hands world next
  | flush : next.duplex = world.duplex → next.record = world.record.flush → world.IsPassedOn →
      Hands world next

theorem Leaves.hands {world next : World E N} (h : world.Leaves next) : world.Hands next := by
  obtain ⟨hheld, hrecord⟩ := h
  refine .nothing hheld ?_ ?_ ?_
  · rw [hrecord]
  · rw [hrecord]
  · simp only [hrecord, List.prefix_rfl]

/-- The transport takes as many bytes as it says, from the front. -/
theorem write_held {duplex next : Duplex} {bytes : Bytes} {count : Nat}
    (h : duplex.write bytes = .ok (count, next)) :
    next.outgoing.held = duplex.outgoing.held ++ bytes.take count := by
  unfold Duplex.write Pipe.write at h
  split at h
  · cases h
  · cases h
  · cases h
    exact congrArg _ (List.prefix_iff_eq_take.mp (List.take_prefix _ _))

theorem flushWrite_hands (flush : Flush) : world.Hands (world.flushWrite flush) := by
  rw [flushWrite]
  split
  · rename_i hempty
    split
    · exact Leaves.hands ⟨rfl, rfl⟩
    · rename_i hdone
      exact .flush rfl rfl ⟨List.isEmpty_iff.mp hempty, hdone⟩
    · exact Leaves.hands ⟨rfl, rfl⟩
  · split
    · exact Leaves.hands ⟨rfl, rfl⟩
    · rename_i count duplex hwrite
      exact .bytes _ (write_held hwrite) rfl

theorem flushTurn_hands (flush : Flush) (pick : Pick) :
    world.Hands (world.flushTurn flush pick) := by
  cases pick with
  | stop =>
      rw [flushTurn]
      split
      · exact Leaves.hands ⟨rfl, rfl⟩
      · exact Leaves.hands ⟨rfl, rfl⟩
  | tick =>
      rw [flushTurn]
      split
      · rw [settleLate]
        split
        · exact Leaves.hands ⟨rfl, rfl⟩
        · exact Leaves.hands ⟨rfl, rfl⟩
      · exact Leaves.hands ⟨rfl, rfl⟩
  | command => exact world.flushWrite_hands flush
  | input => exact world.flushWrite_hands flush

theorem shutdownTurn_hands (deadline : Instant) (pick : Pick) :
    world.Hands (world.shutdownTurn deadline pick) := by
  unfold shutdownTurn
  split
  · split
    · exact Leaves.hands ⟨rfl, rfl⟩
    · exact Leaves.hands ⟨rfl, rfl⟩
  · split
    · split
      · exact Leaves.hands ⟨rfl, rfl⟩
      · exact Leaves.hands ⟨rfl, rfl⟩
    · split
      · exact Leaves.hands ⟨rfl, rfl⟩
      · rename_i count duplex hwrite
        exact .bytes _ (write_held hwrite) rfl

theorem drive_hands (pick : Pick) : world.Hands (world.drive pick) := by
  rw [drive]
  split
  · rename_i job rest hjobs
    obtain ⟨hhanded, hflushed, hframes⟩ := note_leaves world.session world.record job
    exact .nothing rfl hhanded hflushed hframes
  · exact (world.conclude_leaves _).hands
  · rw [turn]
    split
    · exact Leaves.hands ⟨rfl, rfl⟩
    · exact Leaves.hands ⟨rfl, rfl⟩
    · exact Leaves.hands ⟨rfl, rfl⟩
    · exact world.startTurn_leaves.hands
    · exact (world.waitTurn_leaves pick).hands
    · exact world.flushTurn_hands _ pick
    · exact world.shutdownTurn_hands _ pick

theorem step_record (move : Move E N) :
    (∃ pick, move = .drive pick)
      ∨ (world.step move).record = world.record ∧ world.taken? move = none := by
  cases move with
  | spawn program => exact .inr ⟨rfl, rfl⟩
  | thread index =>
      refine .inr ⟨?_, rfl⟩
      rw [step, runThread]
      split
      · rfl
      · rfl
  | attach options duplex =>
      refine .inr ⟨?_, rfl⟩
      rw [step]
      split
      · rfl
      · rfl
  | surround surroundings => exact .inr ⟨rfl, rfl⟩
  | transport duplex => exact .inr ⟨rfl, rfl⟩
  | drive pick => exact .inl ⟨pick, rfl⟩

theorem step_handed (move : Move E N) :
    (world.step move).record.handed
      = world.record.handed ++ (world.taken? move).toList.flatten := by
  rcases world.step_record move with ⟨pick, rfl⟩ | ⟨hrecord, htaken⟩
  · have hsame : ∀ next : World E N, next = world.drive pick →
        (world.taken? (.drive pick)).toList.flatten
          = next.duplex.outgoing.held.drop world.duplex.outgoing.held.length := by
      rintro next rfl
      exact List.append_nil _
    rw [hsame _ rfl]
    cases world.drive_hands pick with
    | nothing hheld hhanded hflushed hframes =>
        rw [hheld, List.drop_length, List.append_nil]
        exact hhanded
    | bytes taken hheld hrecord =>
        rw [hheld, List.drop_left, step, hrecord]
        rfl
    | flush hduplex hrecord hflushed =>
        rw [hduplex, List.drop_length, List.append_nil, step, hrecord]
        rfl
  · rw [hrecord, htaken]
    exact (List.append_nil _).symm

theorem step_frames (move : Move E N) :
    world.record.frames <+: (world.step move).record.frames := by
  rcases world.step_record move with ⟨pick, rfl⟩ | ⟨hrecord, -⟩
  · cases world.drive_hands pick with
    | nothing hheld hhanded hflushed hframes => exact hframes
    | bytes taken hheld hrecord => simp only [step, hrecord, Record.hand, List.prefix_rfl]
    | flush hduplex hrecord hflushed => simp only [step, hrecord, Record.flush, List.prefix_rfl]
  · simp only [hrecord, List.prefix_rfl]

theorem step_flushed (move : Move E N) :
    (world.step move).record.flushed = world.record.flushed
      ∨ world.IsPassedOn ∧ (world.step move).record.flushed = world.record.frames.length := by
  rcases world.step_record move with ⟨pick, rfl⟩ | ⟨hrecord, -⟩
  · cases world.drive_hands pick with
    | nothing hheld hhanded hflushed hframes => exact .inl hflushed
    | bytes taken hheld hrecord =>
        rw [step, hrecord]
        exact .inl rfl
    | flush hduplex hrecord hflushed =>
        rw [step, hrecord]
        exact .inr ⟨hflushed, rfl⟩
  · exact .inl (congrArg Record.flushed hrecord)

/-! ## Runs -/

/-- Everything that the record calls handed was taken by the transport, and nothing else was. -/
theorem run_handed (moves : List (Move E N)) :
    (world.run moves).record.handed
      = world.record.handed ++ (world.gather taken? moves).flatten := by
  have h := gather_preserves taken? (P := fun next : World E N => fun seen =>
    next.record.handed = world.record.handed ++ seen.flatten) ?_ moves world []
    (List.append_nil _).symm
  · exact h
  intro move next seen h
  rw [next.step_handed move, h, List.flatten_append, List.append_assoc]

theorem run_frames (moves : List (Move E N)) :
    world.record.frames <+: (world.run moves).record.frames :=
  run_preserves (P := fun next : World E N => world.record.frames <+: next.record.frames) moves
    (fun move _ next h => h.trans (next.step_frames move)) world List.prefix_rfl

/-- The frames that count as flushed are those of some moment when all was flushed. -/
theorem run_flushed (moves : List (Move E N)) : ∀ world : World E N,
    (world.run moves).record.flushed = world.record.flushed
      ∨ ∃ before after, moves = before ++ after ∧ (world.run before).IsPassedOn
        ∧ (world.run moves).record.flushed = (world.run before).record.frames.length := by
  -- The moment is looked for from the start, so the start is general.
  induction moves with
  | nil => exact fun world => .inl rfl
  | cons move moves ih =>
      intro world
      rcases ih (world.step move) with hsame | ⟨before, after, hmoves, hflushed, hcount⟩
      · rcases world.step_flushed move with hstays | ⟨hflushed, hcount⟩
        · exact .inl (hsame.trans hstays)
        · exact .inr ⟨[], move :: moves, rfl, hflushed, hsame.trans hcount⟩
      · exact .inr ⟨move :: before, after, congrArg (move :: ·) hmoves, hflushed, hcount⟩

end World
end PhaseWire
