import PhaseWire.Proofs.Interleaving.World

/-
# `Gauge` — what a session does, and its counters of connections

Calls, errands and jobs leave both alone, and so do the turns, except the
first and the last.  The other counters change all the time.
-/

namespace PhaseWire

variable {E N : Type}

/-! ## The counters of connections -/

/-- How many connections were counted, and how many are counted as active. -/
def Metrics.connections (metrics : Metrics) : UInt64 × UInt64 :=
  (metrics.connectionsTotal, metrics.connectionsActive)

theorem Metrics.connections_established {metrics found : Metrics}
    (h : metrics.connections = found.connections) :
    metrics.established.connections = found.established.connections := by
  obtain ⟨htotal, hactive⟩ := Prod.ext_iff.mp h
  exact Prod.ext (congrArg (· + 1) htotal) (congrArg (· + 1) hactive)

theorem Metrics.connections_ended {metrics found : Metrics}
    (h : metrics.connections = found.connections) :
    metrics.ended.connections = found.ended.connections := by
  obtain ⟨htotal, hactive⟩ := Prod.ext_iff.mp h
  exact Prod.ext htotal
    (congrArg (fun active : UInt64 => if active = 0 then 0 else active - 1) hactive)

/-- A connection that was counted and taken off leaves the number of active ones as it found it,
unless the counter wrapped. -/
theorem Metrics.active_established_ended (metrics : Metrics) :
    metrics.established.ended.connectionsActive
      = if metrics.connectionsActive + 1 = 0 then 0 else metrics.connectionsActive := by
  simp only [established, ended, UInt64.add_sub_cancel]

/-- What a session is about to do, with its counters of connections. -/
structure Gauge where
  activity : Activity
  connections : UInt64 × UInt64

variable [CustomPackets E]

theorem ConnectionCodec.connections_encode {codec next : ConnectionCodec E} {packet : Packet E}
    {sent : Pipeline.Sent} (h : codec.encode packet = .ok (sent, next)) :
    next.metrics.connections = codec.metrics.connections := by
  obtain ⟨payload, pipeline, -, -, rfl⟩ := encode_eq_ok h
  simp only [count]
  split
  · rfl
  · rfl

theorem ConnectionCodec.connections_decode (codec : ConnectionCodec E) (incoming : Bytes) :
    (codec.decode incoming).2.metrics.connections = codec.metrics.connections := by
  rw [decode]
  split
  · rfl
  · rfl
  · rw [receive]
    split
    · rfl
    · rfl

namespace Session

variable (session : Session E N)

def gauge : Gauge :=
  ⟨session.activity, session.metrics.connections⟩

theorem gauge_complete (tag? : Option Tag) (result : Except Fault Unit) :
    (session.complete tag? result).gauge = session.gauge := by
  cases tag? with
  | none => rfl
  | some tag => rfl

theorem gauge_abandon (command : Command E) : (session.abandon command).gauge = session.gauge :=
  gauge_complete _ command.tag? _

/-! ### Calls and errands -/

theorem accept_gauge (command : Command E) :
    (session.accept command).2.gauge = session.gauge := by
  rw [accept]
  split
  · rfl
  · split
    · rfl
    · rfl
  · rfl

theorem enterClose_gauge (reason : String) (graceful : Bool) :
    (session.enterClose reason graceful).2.2.gauge = session.gauge := by
  rw [enterClose]
  split
  · rfl
  · rfl

theorem enterCheck_gauge (limit : Span) :
    (session.enterCheck limit).2.2.gauge = session.gauge := by
  rw [enterCheck]
  split
  · rfl
  · split
    · rfl
    · rfl

theorem enterCall_gauge (call : Call E) :
    (session.enterCall call).2.2.gauge = session.gauge := by
  cases call with
  | send packet tag? =>
      rw [enterCall]
      cases session.registry.ofPacket packet with
      | error fault => rfl
      | ok descriptor => exact session.accept_gauge _
  | setPhase phase => exact session.accept_gauge _
  | setThreshold threshold => exact session.accept_gauge _
  | encrypt key =>
      rw [enterCall]
      split
      · exact session.accept_gauge _
      · rfl
  | close reason graceful => exact session.enterClose_gauge reason graceful
  | checkAlive limit => exact session.enterCheck_gauge limit

theorem runErrand_gauge (errand : Errand E N) :
    (session.runErrand errand).2.gauge = session.gauge := by
  cases errand with
  | abandon command => exact session.gauge_abandon command
  | announce reason => rfl
  | hook rest =>
      cases rest with
      | done => rfl
      | note note next => rfl
      | look next => rfl
      | call call next => exact session.enterCall_gauge call
  | cancel => rfl
  | close reason graceful => exact session.enterClose_gauge reason graceful

/-! ### Jobs -/

theorem gauge_encrypt (key : Bytes) : (session.encrypt key).2.gauge = session.gauge := by
  simp only [encrypt]
  split
  · rfl
  · split
    · rfl
    · split
      · rfl
      · rfl

theorem gauge_setThreshold (threshold : Int32) :
    (session.setThreshold threshold).2.gauge = session.gauge := by
  rw [setThreshold]
  split
  · split
    · rfl
    · rfl
  · simp only [compressFrom]
    split
    · rfl
    · split
      · rfl
      · rfl

theorem gauge_enableCompression : session.enableCompression.2.gauge = session.gauge := by
  rw [enableCompression]
  split
  · rfl
  · exact session.gauge_setThreshold _

theorem beginPhase_gauge (phase : Phase) :
    (session.beginPhase phase).2.gauge = session.gauge := by
  rw [beginPhase]
  split
  · rfl
  · rfl

theorem beginApproach_gauge (phase : Phase) :
    (session.beginApproach phase).2.gauge = session.gauge := by
  rw [beginApproach]
  split
  · rfl
  · exact { session with reading := false }.beginPhase_gauge phase

theorem runCommand_gauge (command : Command E) :
    (session.runCommand command).2.gauge = session.gauge := by
  cases command with
  | send packet tag? => rfl
  | setPhase phase =>
      rw [runCommand]
      split
      · exact session.beginPhase_gauge phase
      · rfl
  | setThreshold threshold => exact session.gauge_setThreshold threshold
  | encrypt key => exact session.gauge_encrypt key

theorem runApproach_gauge (packet : Packet E) (tag? : Option Tag)
    (next? : Option (Reply → Script E N)) :
    (session.runApproach packet tag? next?).2.gauge = session.gauge := by
  rw [runApproach]
  split
  · rfl
  · exact session.beginApproach_gauge _

theorem runEncode_gauge (packet : Packet E) (tag? : Option Tag)
    (next? : Option (Reply → Script E N)) :
    (session.runEncode packet tag? next?).2.gauge = session.gauge := by
  rw [runEncode]
  cases hencode : session.codec.encode packet with
  | error fault => rfl
  | ok result =>
      obtain ⟨sent, codec⟩ := result
      exact congrArg (Gauge.mk _) (ConnectionCodec.connections_encode hencode)

theorem runAction_gauge (action : Action E) (next : Reply → Script E N) :
    (session.runAction action next).2.gauge = session.gauge := by
  cases action with
  | send packet tag? => rfl
  | setPhase phase =>
      rw [runAction]
      split
      · exact session.beginPhase_gauge phase
      · rename_i hstay
        simp only [act, setPhase, if_neg hstay]
  | setThreshold threshold => exact session.gauge_setThreshold threshold
  | enableCompression => exact session.gauge_enableCompression
  | encrypt key => exact session.gauge_encrypt key
  | call call => exact session.enterCall_gauge call

theorem runScriptStep_gauge (rest : Script E N) :
    (session.runScriptStep rest).2.gauge = session.gauge := by
  cases rest with
  | done result =>
      cases result with
      | ok _ => rfl
      | error fault => rfl
  | note note next => rfl
  | look next => rfl
  | act action next => exact session.runAction_gauge action next

theorem runHandle_gauge (packet : Packet E) :
    (session.runHandle packet).2.gauge = session.gauge := by
  unfold runHandle
  dsimp only
  split
  · rfl
  · split
    · rfl
    · rfl
    · rfl

theorem runTick_gauge : session.runTick.2.gauge = session.gauge := by
  rw [runTick]
  split
  · rfl
  · exact session.enterCheck_gauge _

/-- No job moves a session, or counts a connection. -/
theorem runJob_gauge (job : Job E N) : (session.runJob job).2.gauge = session.gauge := by
  cases job with
  | errand task => exact session.runErrand_gauge task
  | execute command => exact runCommand_gauge _ command
  | write packet tag? next? => rfl
  | approach packet tag? next? => exact session.runApproach_gauge packet tag? next?
  | encode packet tag? next? => exact session.runEncode_gauge packet tag? next?
  | enter phase => rfl
  | tell phase => rfl
  | complete tag? result => exact session.gauge_complete tag? result
  | script rest => exact session.runScriptStep_gauge rest
  | receive packet => rfl
  | handle packet => exact session.runHandle_gauge packet
  | fail fault =>
      simp only [runJob, countFault]
      split
      · rfl
      · rfl
  | failIfOpen fault => rfl
  | tick => exact session.runTick_gauge
  | probe => rfl

theorem proceed_connections (duplex : Duplex) (afterwards : Afterwards) :
    (session.proceed duplex afterwards).1.metrics.connections = session.metrics.connections := by
  cases afterwards with
  | firstWait =>
      rw [proceed, firstWait]
      split
      · rfl
      · rfl
  | wait => rfl
  | shutdown => rfl

theorem beginFlush_connections (duplex : Duplex) (afterwards : Afterwards) :
    (session.beginFlush duplex afterwards).1.metrics.connections
      = session.metrics.connections := by
  rw [beginFlush]
  split
  · exact proceed_connections _ duplex afterwards
  · rfl

end Session

/-! ## Turns -/

namespace World

variable (world : World E N)

theorem takeFrame_gauge (incoming : Bytes) :
    (world.takeFrame incoming).session.gauge = world.session.gauge := by
  have hdecode := world.session.codec.connections_decode incoming
  rw [takeFrame]
  split
  · rename_i packet codec hresult
    rw [hresult] at hdecode
    exact congrArg (Gauge.mk _) hdecode
  · rename_i fault codec hresult
    rw [hresult] at hdecode
    exact congrArg (Gauge.mk _) hdecode
  · rename_i codec hresult
    rw [hresult] at hdecode
    dsimp only
    split
    · exact congrArg (Gauge.mk _) hdecode
    · exact congrArg (Gauge.mk _) hdecode

/-- A session that waits counts no connection, and stays where it is unless it crashes. -/
theorem waitTurn_gauge (pick : Pick) :
    (world.waitTurn pick).session.gauge = world.session.gauge
      ∨ (world.waitTurn pick).session.gauge = ⟨.crashed, world.session.metrics.connections⟩ := by
  cases pick with
  | stop =>
      rw [waitTurn]
      split
      · exact .inl rfl
      · exact .inl rfl
  | command =>
      rw [waitTurn]
      split
      · rename_i command channel hchannel
        exact .inl ({ world.session with channel }.runJob_gauge (.execute command))
      · exact .inl rfl
  | tick =>
      rw [waitTurn]
      split
      · split
        · exact .inl rfl
        · exact .inr rfl
      · exact .inl rfl
  | input =>
      rw [waitTurn]
      split
      · exact .inl rfl
      · split
        · exact .inl (world.takeFrame_gauge [])
        · rw [takeInput]
          split
          · exact .inl (takeFrame_gauge _ _)
          · exact .inl rfl
          · exact .inl (takeFrame_gauge _ _)
          · exact .inl rfl

theorem flushTurn_gauge (flush : Flush) (pick : Pick) :
    (world.flushTurn flush pick).session.gauge = world.session.gauge := by
  have hwrite : (world.flushWrite flush).session.gauge = world.session.gauge := by
    rw [flushWrite]
    split
    · split
      · rfl
      · rfl
      · rfl
    · split
      · rfl
      · rfl
  cases pick with
  | stop =>
      rw [flushTurn]
      split
      · rfl
      · rfl
  | tick =>
      rw [flushTurn]
      split
      · rw [settleLate]
        split
        · rfl
        · rfl
      · rfl
  | command => exact hwrite
  | input => exact hwrite

theorem shutdownTurn_cases (deadline : Instant) (pick : Pick) :
    (world.shutdownTurn deadline pick).session.gauge = world.session.gauge
      ∨ world.shutdownTurn deadline pick = world.finish := by
  unfold shutdownTurn
  split
  · split
    · exact .inr rfl
    · exact .inl rfl
  · split
    · split
      · exact .inl rfl
      · exact .inr rfl
    · split
      · exact .inr rfl
      · exact .inl rfl

end World
end PhaseWire
