import PhaseWire.Proofs.Session.Books
import PhaseWire.Session.Turn

/-
# What a closed session leaves behind

The verdict on a session is why it was closed, the errors that it counted,
and the packets that its listener was given.  To close a session settles
the reason and nothing else of it (`shut_eq`), whatever the listener does
when it is told: the session is closed by then, and refuses everything.
From then on no turn changes the verdict (`IsSettled.turn`).
-/

namespace PhaseWire

variable {E N : Type} [CustomPackets E]

/-- What is found of a session when it is over. -/
structure Verdict (E : Type) where
  reason? : Option String
  protocolErrors : UInt64
  connectionErrors : UInt64
  /-- The packets that the listener was given. -/
  received : List (Packet E)

namespace Session

def verdict (session : Session E N) : Verdict E where
  reason? := session.reason?
  protocolErrors := session.metrics.protocolErrors
  connectionErrors := session.metrics.connectionErrors
  received := session.events.filterMap Event.packet?

/-! ## What is only told -/

/-- Nothing has happened but that something was told, and no packet was given to the listener. -/
def OnlyTells (session next : Session E N) : Prop :=
  ∃ told : List (Event E N), told.filterMap Event.packet? = []
    ∧ next = { session with events := session.events ++ told }

section

variable {session next last : Session E N}

theorem OnlyTells.refl (session : Session E N) : session.OnlyTells session :=
  ⟨[], rfl, by rw [List.append_nil]⟩

theorem OnlyTells.trans (h : session.OnlyTells next) (hlast : next.OnlyTells last) :
    session.OnlyTells last := by
  obtain ⟨told, htold, rfl⟩ := h
  obtain ⟨more, hmore, rfl⟩ := hlast
  refine ⟨told ++ more, ?_, ?_⟩
  · rw [List.filterMap_append, htold, hmore]
    rfl
  · rw [List.append_assoc]

theorem OnlyTells.isClosed (h : session.OnlyTells next) : next.isClosed = session.isClosed := by
  obtain ⟨told, -, rfl⟩ := h
  rfl

theorem log_onlyTells (session : Session E N) {event : Event E N} (hevent : event.packet? = none) :
    session.OnlyTells (session.log event) :=
  ⟨[event], by simp [hevent], rfl⟩

theorem abandon_onlyTells (session : Session E N) (command : Command E) :
    session.OnlyTells (session.abandon command) := by
  have hlog : session.OnlyTells (session.log (.abandoned command)) := session.log_onlyTells rfl
  rw [abandon]
  cases command.tag? with
  | none => exact hlog
  | some tag => exact hlog.trans (log_onlyTells _ rfl)

theorem abandonAll_onlyTells : ∀ (commands : List (Command E)) (session : Session E N),
    session.OnlyTells (commands.foldl abandon session) := by
  intro commands
  induction commands with
  | nil =>
      intro session
      exact .refl session
  | cons command commands ih =>
      intro session
      exact (session.abandon_onlyTells command).trans (ih _)

/-! ## Closing -/

theorem submit_onlyTells (h : session.isClosed = true) (command : Command E) :
    session.OnlyTells (session.submit command) := by
  have hclosed : (session.log (.submitted command)).lifecycle = .closed := of_decide_eq_true h
  have hlog : session.OnlyTells (session.log (.submitted command)) := session.log_onlyTells rfl
  simp only [submit, hclosed]
  exact hlog.trans (abandon_onlyTells _ command)

theorem call_onlyTells (h : session.isClosed = true) (call : Call E) :
    session.OnlyTells (session.callBy closeAgain call).2 := by
  cases call with
  | send packet tag? =>
      rw [callBy]
      cases session.registry.ofPacket packet with
      | error fault => exact .refl session
      | ok descriptor => exact submit_onlyTells h _
  | setPhase phase => exact submit_onlyTells h _
  | setThreshold threshold => exact submit_onlyTells h _
  | encrypt key =>
      rw [callBy]
      split
      · exact submit_onlyTells h _
      · exact .refl session
  | close reason graceful => exact .refl session
  | checkAlive limit =>
      simp only [callBy, checkAliveBy, h, if_true]
      exact .refl session

/-- Whatever the listener does when it is told of the close, it finds the session closed. -/
theorem runHook_onlyTells : ∀ (hook : Hook E N) (session : Session E N),
    session.isClosed = true → session.OnlyTells (runHookBy closeAgain hook session) := by
  intro hook
  induction hook with
  | done =>
      intro session _
      exact .refl session
  | note note next ih =>
      intro session h
      exact (session.log_onlyTells rfl).trans (ih _ h)
  | look next ih =>
      intro session h
      exact ih session.view session h
  | call call next ih =>
      intro session h
      have hcall := call_onlyTells h call
      exact hcall.trans (ih _ _ (hcall.isClosed.trans h))

/-- To close an open session settles the reason. -/
theorem shut_eq (h : session.isClosed = false) (reason : String) :
    ∃ told : List (Event E N), told.filterMap Event.packet? = []
      ∧ session.shut reason =
        { session with
          lifecycle := .closed
          reason? := some reason
          queue := []
          cancelled := true
          events := session.events ++ told } := by
  -- three things are told: what was dropped, the close, and what the listener makes of it
  obtain ⟨dropped, hdropped, hqueue⟩ :=
    abandonAll_onlyTells session.queue (session.beginClose reason).2
  let telling : Session E N :=
    { session with
      lifecycle := .closed
      reason? := some reason
      queue := []
      events := session.events ++ dropped ++ [.closed reason] }
  obtain ⟨told, htold, hhook⟩ := runHook_onlyTells (session.listener.onClosed reason) telling rfl
  refine ⟨dropped ++ [.closed reason] ++ told, ?_, ?_⟩
  · rw [List.filterMap_append, List.filterMap_append, hdropped, htold]
    rfl
  · have hclose : session.shut reason
        = { runHookBy closeAgain (session.listener.onClosed reason) telling with
            cancelled := true } := by
      rw [shut, close, if_neg (by rw [h]; exact Bool.false_ne_true)]
      show { announceClose (session.queue.foldl abandon (session.beginClose reason).2) reason with
        cancelled := true } = _
      rw [hqueue]
      rfl
    rw [hclose, hhook]
    simp only [telling, List.append_assoc]

theorem shut_closed (h : session.isClosed = true) (reason : String) :
    session.shut reason = session := by
  rw [shut, close, if_pos h]

end

/-! ## After the close -/

structure IsSpent (session : Session E N) : Prop where
  closed : session.isClosed = true
  channel : session.channel = []
  tags : session.tags = []

/-- Nor does anybody wait for a flush that is under way. -/
structure IsSettled (session : Session E N) : Prop extends session.IsSpent where
  flush : ∀ flush, session.activity = .flushing flush → flush.tags = []

def SettledOn (verdict : Verdict E) (session : Session E N) : Prop :=
  session.IsSettled ∧ session.verdict = verdict

theorem shut_spent (session : Session E N) (hopen : session.isClosed = false)
    (hchannel : session.channel = []) (htags : session.tags = []) (reason : String) :
    (session.shut reason).IsSpent
      ∧ (session.shut reason).verdict = { session.verdict with reason? := some reason } := by
  obtain ⟨told, htold, hshut⟩ := shut_eq hopen reason
  rw [hshut]
  refine ⟨⟨rfl, hchannel, htags⟩, ?_⟩
  simp only [verdict, List.filterMap_append, htold, List.append_nil]
  rfl

section

variable {session : Session E N} (h : session.IsSpent)

include h

theorem IsSpent.proceed (duplex : Duplex) (afterwards : Afterwards) :
    (session.proceed duplex afterwards).1.SettledOn session.verdict := by
  cases afterwards with
  | firstWait =>
      rw [Session.proceed, firstWait]
      split
      · exact ⟨⟨⟨h.closed, h.channel, h.tags⟩, nofun⟩, rfl⟩
      · exact ⟨⟨⟨h.closed, rfl, rfl⟩, nofun⟩, rfl⟩
  | wait => exact ⟨⟨⟨h.closed, h.channel, h.tags⟩, nofun⟩, rfl⟩
  | shutdown => exact ⟨⟨⟨h.closed, h.channel, h.tags⟩, nofun⟩, rfl⟩

theorem IsSpent.endFlush (duplex : Duplex) (afterwards : Afterwards) :
    (session.endFlush duplex afterwards).1.SettledOn session.verdict := by
  have hreading : IsSpent { session with reading := true } := ⟨h.closed, h.channel, h.tags⟩
  exact hreading.proceed duplex afterwards

theorem IsSpent.beginFlush (duplex : Duplex) (afterwards : Afterwards) :
    (session.beginFlush duplex afterwards).1.SettledOn session.verdict := by
  rw [Session.beginFlush]
  split
  · exact h.endFlush duplex afterwards
  · refine ⟨⟨⟨h.closed, h.channel, rfl⟩, ?_⟩, rfl⟩
    rintro flush hflush
    cases hflush
    exact h.tags

theorem IsSpent.flushFailed {flush : Flush} (hflush : flush.tags = []) (fault : Fault) :
    session.flushFailed flush fault = session := by
  rw [Session.flushFailed, hflush]
  exact if_pos h.closed

theorem IsSpent.flushLate {flush : Flush} (hflush : flush.tags = []) :
    (session.flushLate flush).IsSpent ∧ (session.flushLate flush).verdict = session.verdict := by
  rw [Session.flushLate]
  split
  · rw [h.flushFailed hflush]
    exact ⟨h, rfl⟩
  · have hcounted : (session.count Metrics.keepaliveTimeout).IsSpent := ⟨h.closed, h.channel, h.tags⟩
    rw [shut_closed hcounted.closed, hcounted.flushFailed hflush]
    exact ⟨hcounted, rfl⟩

end

section

variable {session : Session E N} (h : session.IsSettled) {duplex : Duplex}
  {result : Session E N × Duplex}

include h

theorem IsSettled.sent (outgoing : Bytes) : IsSettled { session with outgoing } :=
  ⟨⟨h.closed, h.channel, h.tags⟩, h.flush⟩

theorem IsSettled.flushStep {flush : Flush} (hflush : flush.tags = [])
    (hstep : session.flushStep duplex flush = some result) :
    result.1.SettledOn session.verdict := by
  rcases hpush : duplex.push session.outgoing with ⟨sent, count, written⟩
  have hsent := h.sent (session.outgoing.drop count)
  -- nobody waits for the flush, so nobody is told how it went
  simp only [Session.flushStep, hpush, hsent.toIsSpent.flushFailed hflush, hflush] at hstep
  split at hstep
  · cases hstep
    exact hsent.toIsSpent.endFlush written flush.afterwards
  · cases hstep
    exact hsent.toIsSpent.endFlush written flush.afterwards
  · split at hstep
    · cases hstep
      exact hsent.toIsSpent.endFlush written flush.afterwards
    · split at hstep
      · cases hstep
        obtain ⟨hlate, hverdict⟩ := hsent.toIsSpent.flushLate hflush
        have hend := hlate.endFlush written flush.afterwards
        rw [hverdict] at hend
        exact hend
      · split at hstep
        · cases hstep
        · cases hstep
          exact ⟨hsent, rfl⟩

theorem IsSettled.finish (hstep : session.finish duplex = some result) :
    result.1.SettledOn session.verdict := by
  cases hstep
  exact ⟨⟨⟨h.closed, h.channel, h.tags⟩, nofun⟩, rfl⟩

theorem IsSettled.shutdownStep {deadline : Instant}
    (hstep : session.shutdownStep duplex deadline = some result) :
    result.1.SettledOn session.verdict := by
  rcases hpush : duplex.push session.outgoing with ⟨sent, count, written⟩
  have hsent := h.sent (session.outgoing.drop count)
  simp only [Session.shutdownStep, hpush] at hstep
  split at hstep
  · exact hsent.finish hstep
  · exact hsent.finish hstep
  · split at hstep
    · exact hsent.finish hstep
    · split at hstep
      · cases hstep
      · cases hstep
        exact ⟨hsent, rfl⟩

theorem IsSettled.startStep (hstep : session.startStep duplex = some result) :
    result.1.SettledOn session.verdict := by
  have hcounted : (session.count Metrics.established).IsSpent := ⟨h.closed, h.channel, h.tags⟩
  have hclosed : (session.count Metrics.established).lifecycle = .closed :=
    of_decide_eq_true hcounted.closed
  simp only [Session.startStep, hclosed] at hstep
  cases hstep
  exact hcounted.proceed duplex .firstWait

theorem IsSettled.endStep (hstep : session.endStep duplex = some result) :
    result.1.SettledOn session.verdict := by
  simp only [Session.endStep, shut_closed h.closed, h.channel] at hstep
  cases hstep
  have hspent : IsSpent { session with channel := [] } := ⟨h.closed, rfl, h.tags⟩
  exact hspent.beginFlush duplex .shutdown

/-- No turn of a settled session changes the verdict. -/
theorem IsSettled.turn (hturn : session.turn duplex = some result) :
    result.1.SettledOn session.verdict := by
  rw [Session.turn] at hturn
  split at hturn
  · cases hturn
  · cases hturn
  · cases hturn
  · exact h.startStep hturn
  · rename_i flush hactivity
    exact h.flushStep (h.flush flush hactivity) hturn
  · exact h.shutdownStep hturn
  · rw [if_pos h.closed] at hturn
    exact h.endStep hturn

end

end Session
end PhaseWire
