import PhaseWire.Proofs.Interleaving.Ending
import PhaseWire.Proofs.Interleaving.Keepalive
import PhaseWire.Proofs.Session.Controls

/-
# Controls under any schedule

Only the session's own turn controls its stages: a command that is carried
out, or a program of the listener.  Everything else that happens to a
connection is traffic, or is not about its stages at all; that holds job
by job (`runJob_carries`) and move by move (`step_carries`).  A session
without a transport has no turns, so the options that come with the
transport are those of every control.
-/

namespace PhaseWire

variable {E N : Type}

/-- The control that a job is about to carry out. -/
def Job.control? : Job E N → Option Control
  | execute (.setThreshold size) => some (.threshold size)
  | execute (.encrypt key) => some (.encrypt key)
  | script (.act (.setThreshold size) _) => some (.threshold size)
  | script (.act .enableCompression _) => some .enable
  | script (.act (.encrypt key) _) => some (.encrypt key)
  | _ => none

/-- What goes on when an action is answered.  Nobody waits for a command. -/
def Job.resumed (reply : Reply) : Job E N → List (Job E N)
  | script (.act _ next) => [.script (next reply)]
  | _ => []

variable [CustomPackets E]

theorem ConnectionCodec.decode_pipeline (codec : ConnectionCodec E) (incoming : Bytes) :
    (codec.decode incoming).2.pipeline = (codec.pipeline.decode incoming).2
      ∧ (codec.decode incoming).2.metrics.encryptionEnabled
        = codec.metrics.encryptionEnabled := by
  rw [decode]
  split
  · rename_i hdecode
    rw [hdecode]
    exact ⟨rfl, rfl⟩
  · rename_i hdecode
    rw [hdecode]
    exact ⟨rfl, rfl⟩
  · rename_i hdecode
    rw [hdecode, receive]
    split
    · exact ⟨rfl, rfl⟩
    · exact ⟨rfl, rfl⟩

namespace Session

variable (session : Session E N)

/-! ## Calls and errands -/

theorem rig_complete (tag? : Option Tag) (result : Except Fault Unit) :
    (session.complete tag? result).rig = session.rig := by
  cases tag? with
  | none => rfl
  | some tag => rfl

theorem rig_abandon (command : Command E) : (session.abandon command).rig = session.rig :=
  rig_complete _ command.tag? _

theorem accept_rig (command : Command E) : (session.accept command).2.rig = session.rig := by
  rw [accept]
  split
  · rfl
  · split
    · rfl
    · rfl
  · rfl

theorem enterClose_rig (reason : String) (graceful : Bool) :
    (session.enterClose reason graceful).2.2.rig = session.rig := by
  rw [enterClose]
  split
  · rfl
  · rfl

theorem enterCheck_rig (limit : Span) : (session.enterCheck limit).2.2.rig = session.rig := by
  rw [enterCheck]
  split
  · rfl
  · split
    · rfl
    · rfl

theorem enterCall_rig (call : Call E) : (session.enterCall call).2.2.rig = session.rig := by
  cases call with
  | send packet tag? =>
      rw [enterCall]
      cases session.registry.ofPacket packet with
      | error fault => rfl
      | ok descriptor => exact session.accept_rig _
  | setPhase phase => exact session.accept_rig _
  | setThreshold threshold => exact session.accept_rig _
  | encrypt key =>
      rw [enterCall]
      split
      · exact session.accept_rig _
      · rfl
  | close reason graceful => exact session.enterClose_rig reason graceful
  | checkAlive limit => exact session.enterCheck_rig limit

theorem runErrand_rig (errand : Errand E N) :
    (session.runErrand errand).2.rig = session.rig := by
  cases errand with
  | abandon command => exact session.rig_abandon command
  | announce reason => rfl
  | hook rest =>
      cases rest with
      | done => rfl
      | note note next => rfl
      | look next => rfl
      | call call next => exact session.enterCall_rig call
  | cancel => rfl
  | close reason graceful => exact session.enterClose_rig reason graceful

/-! ## Jobs -/

theorem beginPhase_rig (phase : Phase) : (session.beginPhase phase).2.rig = session.rig := by
  rw [beginPhase]
  split
  · rfl
  · rfl

theorem beginApproach_rig (phase : Phase) :
    (session.beginApproach phase).2.rig = session.rig := by
  rw [beginApproach]
  split
  · rfl
  · exact { session with reading := false }.beginPhase_rig phase

theorem runApproach_rig (packet : Packet E) (tag? : Option Tag)
    (next? : Option (Reply → Script E N)) :
    (session.runApproach packet tag? next?).2.rig = session.rig := by
  rw [runApproach]
  split
  · rfl
  · exact session.beginApproach_rig _

theorem runEncode_carries (packet : Packet E) (tag? : Option Tag)
    (next? : Option (Reply → Script E N)) :
    session.rig.Carries (session.runEncode packet tag? next?).2.rig := by
  rw [runEncode]
  cases hencode : session.codec.encode packet with
  | error fault => exact .of_eq rfl
  | ok result =>
      obtain ⟨sent, codec⟩ := result
      obtain ⟨payload, pipeline, -, hpipeline, rfl⟩ := ConnectionCodec.encode_eq_ok hencode
      refine ⟨rfl, Pipeline.carries_encode hpipeline, ?_⟩
      show (ConnectionCodec.count session.codec.metrics sent).encryptionEnabled = _
      rw [ConnectionCodec.count]
      split
      · rfl
      · rfl

theorem runHandle_rig (packet : Packet E) : (session.runHandle packet).2.rig = session.rig := by
  unfold runHandle
  dsimp only
  split
  · rfl
  · split
    · rfl
    · rfl
    · rfl

theorem runTick_rig : session.runTick.2.rig = session.rig := by
  rw [runTick]
  split
  · rfl
  · exact session.enterCheck_rig _

theorem runCommand_rig {command : Command E} (h : (Job.execute (N := N) command).control? = none) :
    (session.runCommand command).2.rig = session.rig := by
  cases command with
  | send packet tag? => rfl
  | setPhase phase =>
      rw [runCommand]
      split
      · exact session.beginPhase_rig phase
      · rfl
  | setThreshold size => cases h
  | encrypt key => cases h

theorem runScriptStep_rig {rest : Script E N} (h : (Job.script rest).control? = none) :
    (session.runScriptStep rest).2.rig = session.rig := by
  cases rest with
  | done result =>
      cases result with
      | ok _ => rfl
      | error fault => rfl
  | note note next => rfl
  | look next => rfl
  | act action next =>
      rw [runScriptStep]
      cases action with
      | send packet tag? => rfl
      | setPhase phase =>
          rw [runAction]
          split
          · exact session.beginPhase_rig phase
          · rename_i hstay
            simp only [act, setPhase, if_neg hstay]
      | setThreshold size => cases h
      | enableCompression => cases h
      | encrypt key => cases h
      | call call => exact session.enterCall_rig call

theorem runJob_carries {job : Job E N} (h : job.control? = none) :
    session.rig.Carries (session.runJob job).2.rig := by
  cases job with
  | errand task => exact .of_eq (session.runErrand_rig task)
  | execute command => exact .of_eq (runCommand_rig _ h)
  | write packet tag? next? => exact .of_eq rfl
  | approach packet tag? next? => exact .of_eq (session.runApproach_rig packet tag? next?)
  | encode packet tag? next? => exact session.runEncode_carries packet tag? next?
  | enter phase => exact .of_eq rfl
  | tell phase => exact .of_eq rfl
  | complete tag? result => exact .of_eq (session.rig_complete tag? result)
  | script rest => exact .of_eq (session.runScriptStep_rig h)
  | receive packet => exact .of_eq rfl
  | handle packet => exact .of_eq (session.runHandle_rig packet)
  | fail fault =>
      refine .of_eq ?_
      simp only [runJob, countFault]
      split
      · rfl
      · rfl
  | failIfOpen fault => exact .of_eq rfl
  | tick => exact .of_eq session.runTick_rig
  | probe => exact .of_eq rfl

/-- A control is carried out on the spot, and whoever waits for the answer goes on. -/
theorem runJob_control {job : Job E N} {control : Control} (h : job.control? = some control) :
    (session.runJob job).1 = job.resumed (session.act control.action).1
      ∧ (session.runJob job).2.rig = (session.act control.action).2.rig := by
  have hlog : ∀ command : Command E, (session.log (.executed command)).rig = session.rig :=
    fun _ => rfl
  unfold Job.control? at h
  split at h
  · rename_i size
    cases h
    exact ⟨rfl, (act_congr (hlog (.setThreshold size)) (.threshold size)).2⟩
  · rename_i key
    cases h
    exact ⟨rfl, (act_congr (hlog (.encrypt key)) (.encrypt key)).2⟩
  · cases h
    exact ⟨rfl, rfl⟩
  · cases h
    exact ⟨rfl, rfl⟩
  · cases h
    exact ⟨rfl, rfl⟩
  · cases h

/-- A key that comes too late leaves nothing but a note that a command was carried out. -/
theorem runJob_encrypt_again {job : Job E N} {key : Bytes} (h : job.control? = some (.encrypt key))
    (hencrypted : session.codec.pipeline.isEncrypted) :
    ∃ events, session.runJob job
        = (job.resumed (.outcome (.error .alreadyEncrypted)),
          { session with events := session.events ++ events })
      ∧ events.Sublist [.executed (.encrypt key)] := by
  unfold Job.control? at h
  split at h
  · cases h
  · rename_i given
    cases h
    have hlogged : (session.log (.executed (.encrypt key))).codec.pipeline.isEncrypted := hencrypted
    refine ⟨[.executed (.encrypt key)], ?_, .refl _⟩
    rw [runJob, runCommand, encrypt_again hlogged]
    rfl
  · cases h
  · cases h
  · rename_i given next
    cases h
    refine ⟨[], ?_, List.nil_sublist _⟩
    rw [List.append_nil]
    show ([Job.script (next (.outcome (session.encrypt key).1))], (session.encrypt key).2) = _
    rw [encrypt_again hencrypted]
    rfl
  · cases h

theorem proceed_rig (duplex : Duplex) (afterwards : Afterwards) :
    (session.proceed duplex afterwards).1.rig = session.rig := by
  cases afterwards with
  | firstWait =>
      rw [proceed, firstWait]
      split
      · rfl
      · rfl
  | wait => rfl
  | shutdown => rfl

theorem beginFlush_rig (duplex : Duplex) (afterwards : Afterwards) :
    (session.beginFlush duplex afterwards).1.rig = session.rig := by
  rw [beginFlush]
  split
  · exact proceed_rig _ duplex afterwards
  · rfl

end Session

/-! ## Moves -/

namespace World

variable (world : World E N)

def control? (move : Move E N) : Option (Control × Reply) :=
  ((world.doing? move).bind Job.control?).map fun control =>
    (control, (world.session.act control.action).1)

/-- The controls of a run, with the answers to them. -/
def controls (moves : List (Move E N)) : List (Control × Reply) :=
  world.gather control? moves

theorem takeFrame_carries {session : Session E N} {duplex : Duplex} (incoming : Bytes)
    (h : session.rig = world.session.rig) :
    world.session.rig.Carries ({ world with session, duplex }.takeFrame incoming).session.rig := by
  obtain ⟨hpipeline, hcount⟩ := session.codec.decode_pipeline incoming
  have hdecoded : session.rig.Carries
      ⟨session.options, (session.codec.decode incoming).2.pipeline,
        (session.codec.decode incoming).2.metrics.encryptionEnabled⟩ :=
    ⟨rfl, hpipeline ▸ Pipeline.carries_decode session.codec.pipeline incoming, hcount⟩
  rw [h] at hdecoded
  rw [takeFrame]
  dsimp only
  split
  · rename_i packet codec hresult
    rw [hresult] at hdecoded
    exact hdecoded
  · rename_i fault codec hresult
    rw [hresult] at hdecoded
    exact hdecoded
  · rename_i codec hresult
    rw [hresult] at hdecoded
    split
    · exact hdecoded
    · exact hdecoded

theorem waitTurn_carries {pick : Pick} (hactivity : world.session.activity = .waiting)
    (hnone : world.beginning? pick = none) :
    world.session.rig.Carries (world.waitTurn pick).session.rig := by
  cases pick with
  | stop =>
      rw [waitTurn]
      split
      · exact .of_eq rfl
      · exact .of_eq rfl
  | command =>
      rw [waitTurn]
      split
      · rename_i command channel hchannel
        simp only [beginning?, hactivity, hchannel, reduceCtorEq] at hnone
      · exact .of_eq rfl
  | tick =>
      rw [waitTurn]
      split
      · split
        · exact .of_eq rfl
        · exact .of_eq rfl
      · exact .of_eq rfl
  | input =>
      rw [waitTurn]
      split
      · exact .of_eq rfl
      · split
        · exact world.takeFrame_carries [] rfl
        · rw [takeInput]
          split
          · exact world.takeFrame_carries _ rfl
          · exact .of_eq rfl
          · exact world.takeFrame_carries _ rfl
          · exact .of_eq rfl

theorem flushTurn_rig (flush : Flush) (pick : Pick) :
    (world.flushTurn flush pick).session.rig = world.session.rig := by
  have hwrite : (world.flushWrite flush).session.rig = world.session.rig := by
    rw [flushWrite]
    split
    · split
      · rfl
      · rfl
      · rfl
    · split
      · rfl
      · rfl
  cases pick with
  | stop =>
      rw [flushTurn]
      split
      · rfl
      · rfl
  | tick =>
      rw [flushTurn]
      split
      · rw [settleLate]
        split
        · rfl
        · rfl
      · rfl
  | command => exact hwrite
  | input => exact hwrite

theorem shutdownTurn_rig (deadline : Instant) (pick : Pick) :
    (world.shutdownTurn deadline pick).session.rig = world.session.rig := by
  unfold shutdownTurn
  split
  · split
    · rfl
    · rfl
  · split
    · split
      · rfl
      · rfl
    · split
      · rfl
      · rfl

theorem conclude_rig (sequel : Sequel) :
    (world.conclude sequel).session.rig = world.session.rig := by
  cases sequel with
  | flush afterwards => exact world.session.beginFlush_rig _ afterwards
  | goOn afterwards => exact Session.proceed_rig _ _ afterwards
  | dropLeft =>
      rw [conclude]
      split
      · exact Session.rig_abandon _ _
      · exact world.session.beginFlush_rig _ .shutdown

theorem startTurn_rig : world.startTurn.session.rig = world.session.rig := by
  rw [startTurn]
  split
  · rfl
  · exact Session.proceed_rig _ world.duplex .firstWait

theorem turn_carries {pick : Pick} (hnone : world.beginning? pick = none) :
    world.session.rig.Carries (world.turn pick).session.rig := by
  rw [turn]
  split
  · exact .of_eq rfl
  · exact .of_eq rfl
  · exact .of_eq rfl
  · exact .of_eq world.startTurn_rig
  · rename_i hactivity
    exact world.waitTurn_carries hactivity hnone
  · exact .of_eq (world.flushTurn_rig _ pick)
  · exact .of_eq (world.shutdownTurn_rig _ pick)

variable {world}

theorem step_carries {move : Move E N} (hnone : world.control? move = none) :
    world.session.rig.Carries (world.step move).session.rig
      ∨ ∃ options duplex, move = .attach options duplex ∧ world.session.activity = .detached
        ∧ (world.step move).session.rig
          = ⟨options, .new options.maxFrame, world.session.metrics.encryptionEnabled⟩ := by
  -- a job may be a control and is none here; without a job only bytes can come in
  cases hdoing : world.doing? move with
  | some job =>
      obtain ⟨channel, hsession, -⟩ := world.step_doing hdoing
      rw [control?, hdoing, Option.map_eq_none_iff, Option.bind_some] at hnone
      rw [hsession]
      exact .inl ({ world.session with channel }.runJob_carries hnone)
  | none =>
      cases move with
      | spawn program => exact .inl (.of_eq rfl)
      | thread index =>
          left
          rw [step, runThread]
          split
          · exact .of_eq (world.session.runErrand_rig _)
          · exact .of_eq rfl
      | attach options duplex =>
          rw [step, Session.attach]
          by_cases hdetached : world.session.activity = .detached
          · rw [if_pos hdetached]
            exact .inr ⟨options, duplex, rfl, hdetached, rfl⟩
          · rw [if_neg hdetached]
            exact .inl (.of_eq rfl)
      | surround surroundings => exact .inl (.of_eq rfl)
      | transport duplex => exact .inl (.of_eq rfl)
      | drive pick =>
          left
          rw [step, drive]
          split
          · rename_i job rest hjobs
            rw [doing_job hjobs] at hdoing
            cases hdoing
          · rename_i sequel hjobs hsequel
            exact .of_eq (world.conclude_rig sequel)
          · rename_i hjobs hsequel
            simp only [doing?, hjobs, hsequel] at hdoing
            exact world.turn_carries hdoing

theorem step_control {move : Move E N} {control : Control} {reply : Reply}
    (h : world.control? move = some (control, reply)) :
    reply = (world.session.act control.action).1
      ∧ (world.step move).session.rig = (world.session.act control.action).2.rig
      ∧ ∃ job, world.doing? move = some job ∧ job.control? = some control
        ∧ (world.step move).jobs = job.resumed reply ++ world.jobs.tail := by
  obtain ⟨found, hfound, heq⟩ := Option.map_eq_some_iff.mp h
  obtain ⟨rfl, rfl⟩ := Prod.mk.inj heq
  obtain ⟨job, hdoing, hjob⟩ := Option.bind_eq_some_iff.mp hfound
  obtain ⟨channel, hsession, hjobs⟩ := world.step_doing hdoing
  obtain ⟨hleft, hrig⟩ := { world.session with channel }.runJob_control hjob
  obtain ⟨hreply, hsame⟩ := Session.act_congr
    (show { world.session with channel }.rig = world.session.rig from rfl) found
  refine ⟨rfl, ?_, job, hdoing, hjob, ?_⟩
  · rw [hsession, hrig, hsame]
  · rw [hjobs, hleft, hreply]

/-- A key that comes too late changes nothing; if it came as a command, that was noted, and it is
off the channel. -/
theorem step_encrypt_again {move : Move E N} {key : Bytes} {reply : Reply}
    (h : world.control? move = some (.encrypt key, reply))
    (hencrypted : world.session.codec.pipeline.isEncrypted) :
    reply = .outcome (.error .alreadyEncrypted)
      ∧ ∃ channel events, channel <:+ world.session.channel
        ∧ (world.step move).session
          = { world.session with channel, events := world.session.events ++ events }
        ∧ events.Sublist [.executed (.encrypt key)] := by
  obtain ⟨hreply, -, job, hdoing, hjob, -⟩ := step_control h
  obtain ⟨channel, hchannel, hsession, -⟩ := world.step_takes hdoing
  obtain ⟨events, hrun, hevents⟩ :=
    { world.session with channel }.runJob_encrypt_again hjob hencrypted
  refine ⟨?_, channel, events, hchannel, ?_, hevents⟩
  · rw [hreply, Control.action, Session.act, Session.encrypt_again hencrypted]
  · rw [hsession, hrun]

/-! ## All schedules -/

/-- What every move keeps of a world and the controls so far. -/
structure Governed (found : UInt64) (world : World E N) (made : List (Control × Reply)) : Prop where
  paced : world.ledger.Paced
  /-- Nothing is controlled before there is a transport. -/
  fresh : world.session.activity = .detached → made = []
  set : world.session.rig.IsSet found made

variable {found : UInt64} {made : List (Control × Reply)}

theorem Governed.step (h : world.Governed found made) (move : Move E N) :
    (world.step move).Governed found (made ++ (world.control? move).toList) where
  paced := h.paced.entry (world.step_entry move)
  fresh hdetached := by
    have hbefore := world.step_detached move hdetached
    rw [h.fresh hbefore, control?, doing?_detached h.paced hbefore move]
    rfl
  set := by
    cases hcontrol : world.control? move with
    | none =>
        rw [Option.toList_none, List.append_nil]
        rcases step_carries hcontrol with hcarries | ⟨options, duplex, -, hdetached, hrig⟩
        · exact h.set.carries hcarries
        · -- new options could change what the history says, but there is no history yet
          have hset := h.set
          rw [h.fresh hdetached] at hset ⊢
          rw [hrig]
          exact hset.renew options options.maxFrame
    | some made =>
        obtain ⟨control, reply⟩ := made
        obtain ⟨rfl, hrig, -⟩ := step_control hcontrol
        rw [hrig]
        exact Session.act_isSet h.set control

theorem governed_run (metrics : Metrics) (registry : Registry E) (listener : Listener E N)
    (moves : List (Move E N)) :
    ((among metrics registry listener).run moves).Governed metrics.encryptionEnabled
      ((among metrics registry listener).controls moves) := by
  have hstart : (among metrics registry listener).Governed metrics.encryptionEnabled [] := by
    refine ⟨(run_tidy metrics registry listener []).1, fun _ => rfl, ?_⟩
    exact Rig.isSet_new _ Limit.frame metrics.encryptionEnabled
  exact gather_preserves control?
    (P := fun world made => world.Governed metrics.encryptionEnabled made)
    (fun move _ _ h => h.step move) moves _ [] hstart

/-- Under any schedule, all thresholds but the last one that was applied are forgotten, and all keys
but the first one that had the length of a key.

No control of compression fails.  There is a compressor unless no threshold was applied or the last
one was negative, and it has that threshold and whatever else the options say.

There is a cipher if a key of the right length was given; it is that of the first one, moved on by
the traffic since, and the connection is counted as encrypted once.  Of two keys the second is
refused, as soon as the first was taken, and nothing comes of it but the answer.

And whatever other run has the same controls of compression under the same options has the same
compressor, wherever keys stand among its controls. -/
theorem stages_follow_controls (metrics : Metrics) (registry : Registry E) (listener : Listener E N)
    (moves : List (Move E N)) (move : Move E N) :
    let start := among metrics registry listener
    let world := start.run moves
    let next := world.step move
    let made := start.controls moves
    let controls := made.map Prod.fst
    let options := world.session.options
    let pipeline := world.session.codec.pipeline
    let applied := controls.filterMap (Control.applied? options)
    (∀ before control reply after, made = before ++ (control, reply) :: after →
        reply = control.reply options (before.map Prod.fst))
      ∧ (pipeline.compressor? = none ↔
          applied = [] ∨ ∃ size, applied.getLast? = some size ∧ size < 0)
      ∧ (∀ size, applied.getLast? = some size → ¬ size < 0 → pipeline.compressor? = some
          { threshold := size.toInt.toNat
            method := options.method
            level := options.level
            maxBody := options.maxUncompressed
            library := options.library })
      ∧ (pipeline.isEncrypted ↔ ∃ key, .encrypt key ∈ controls ∧ key.length = Limit.cipherKey)
      ∧ (∀ before key after, controls = before ++ .encrypt key :: after →
          key.length = Limit.cipherKey →
          (∀ other, .encrypt other ∈ before → other.length ≠ Limit.cipherKey) →
          ∃ cipher sent received, Cipher.ofKey key = .ok cipher
            ∧ pipeline.cipher? = some (cipher.moved sent received))
      ∧ world.session.metrics.encryptionEnabled
          = metrics.encryptionEnabled + (if pipeline.isEncrypted then 1 else 0)
      ∧ (∀ control reply, world.control? move = some (control, reply) →
          ∃ job, world.doing? move = some job
            ∧ next.jobs = job.resumed reply ++ world.jobs.tail)
      ∧ (∀ key reply, world.control? move = some (.encrypt key, reply) → pipeline.isEncrypted →
          reply = .outcome (.error .alreadyEncrypted)
            ∧ ∃ channel events, channel <:+ world.session.channel
              ∧ next.session
                = { world.session with channel, events := world.session.events ++ events }
              ∧ events.Sublist [.executed (.encrypt key)])
      ∧ (∀ (metrics : Metrics) (registry : Registry E) (listener : Listener E N)
            (moves : List (Move E N)),
          let other := among metrics registry listener
          (other.run moves).session.options = options →
          ((other.controls moves).map Prod.fst).filter (!Control.isEncrypt ·)
            = controls.filter (!Control.isEncrypt ·) →
          (other.run moves).session.codec.pipeline.compressor? = pipeline.compressor?) := by
  intro start world next made controls options pipeline applied
  have hset : world.session.rig.IsSet metrics.encryptionEnabled made :=
    (governed_run metrics registry listener moves).set
  have hcompressor : pipeline.compressor? = Control.tuned options applied.getLast? :=
    hset.compressor?_eq
  have hencrypted : pipeline.isEncrypted = (Control.firstKey? controls).isSome :=
    hset.isEncrypted_eq
  refine ⟨hset.answered, ?_, ?_, ?_, ?_, hset.counted, ?_, ?_, ?_⟩
  · rw [hcompressor, Control.tuned_eq_none_iff, ← List.getLast?_eq_none_iff]
  · intro size hlast hpositive
    rw [hcompressor, hlast, Control.tuned, if_neg hpositive]
    rfl
  · rw [hencrypted]
    exact Control.firstKey?_isSome_iff controls
  · intro before key after hcontrols hlength hfirst
    refine hset.cipher?_eq ?_
    show Control.firstKey? controls = some key
    rw [hcontrols]
    exact Control.firstKey?_eq hlength hfirst
  · intro control reply hcontrol
    obtain ⟨-, -, job, hdoing, -, hjobs⟩ := step_control hcontrol
    exact ⟨job, hdoing, hjobs⟩
  · intro key reply hcontrol hagain
    exact step_encrypt_again hcontrol hagain
  · intro metrics registry listener moves other hoptions hothers
    have hother : (other.run moves).session.codec.pipeline.compressor?
        = Control.tuned (other.run moves).session.options
          (Control.lastApplied? (other.run moves).session.options
            ((other.controls moves).map Prod.fst)) :=
      (governed_run metrics registry listener moves).set.compressor?_eq
    have hlast := Control.lastApplied?_filter options ((other.controls moves).map Prod.fst)
    rw [hothers, Control.lastApplied?_filter] at hlast
    rw [hother, hoptions, ← hlast, hcompressor]
    rfl

/-- Somebody asks for compression, encryption, no compression, other compression and another key. -/
def rearranging : Hook Empty Unit :=
  .call (.setThreshold 64) fun _ => .call (.encrypt (List.replicate 16 7)) fun _ =>
    .call (.setThreshold (-1)) fun _ => .call (.setThreshold 256) fun _ =>
      .call (.encrypt (List.replicate 16 9)) fun _ => .done

/-- It is carried out when the session starts. -/
def rearranged : List (Move Empty Unit) :=
  [.spawn rearranging] ++ List.replicate 5 (.thread 0) ++ [.attach (.standard .server) (.new 64)]
    ++ List.replicate 6 (.drive .input)

example :
    let start := World.new (.standard .server) Listener.idle
    let session := (start.run rearranged).session
    (start.controls rearranged).filterMap (·.2.fault?) = [.alreadyEncrypted]
      ∧ session.codec.pipeline.compressor?.map Compressor.threshold = some 256
      ∧ session.codec.pipeline.isEncrypted ∧ session.metrics.encryptionEnabled = 1 := by
  decide +kernel

end World
end PhaseWire
