import PhaseWire.Proofs.Codec.Packets
import PhaseWire.Proofs.Session.Books
import PhaseWire.Session.Script

/-
# A session with more bytes at hand

`session.ahead rest` is the session as it would be if the bytes in `rest`
had come in already, with everything put aside that belongs to the moment:
the clocks, the transport and what waits for a flush.  A listener that only
reconfigures its session cannot tell the two apart, so whatever it does
may as well be done ahead (`…_ahead`).  Only the bytes at hand could give
them away, and they pass a new cipher either way.

What such a listener cannot touch is the `Standing` of the session
(`standing_…`): whether it is open, what it has counted as errors, what it
was told of packets, and where its driver is.
-/

namespace PhaseWire

variable {E N : Type}

/-! ## Listeners that only reconfigure -/

/-- Whether an action changes how the connection goes on and is no traffic. -/
def Action.reconfigures : Action E → Bool
  | setPhase _ | setThreshold _ | enableCompression | encrypt _ => true
  | send .. | call _ => false

/-- A hook that calls nobody, whatever it sees. -/
inductive Hook.IsQuiet : Hook E N → Prop
  | done : IsQuiet .done
  | note {note : N} {next : Hook E N} : IsQuiet next → IsQuiet (.note note next)
  | look {next : View E N → Hook E N} : (∀ view, IsQuiet (next view)) → IsQuiet (.look next)

/-- A program that only reconfigures its session and ends well, whatever it sees and whatever comes
of it. -/
inductive Script.IsMild : Script E N → Prop
  | done : IsMild (.done (.ok ()))
  | note {note : N} {next : Script E N} : IsMild next → IsMild (.note note next)
  | look {next : View E N → Script E N} : (∀ view, IsMild (next view)) → IsMild (.look next)
  | act {action : Action E} {next : Reply → Script E N} : action.reconfigures = true →
      (∀ reply, IsMild (next reply)) → IsMild (.act action next)

/-- A listener that calls nobody when it is told of a phase. -/
def Listener.IsQuiet (listener : Listener E N) : Prop :=
  ∀ phase, (listener.onPhase phase).IsQuiet

variable [CustomPackets E]

/-- What a listener that only reconfigures its session cannot touch. -/
structure Standing (E N : Type) [CustomPackets E] where
  listener : Listener E N
  registry : Registry E
  options : SessionOptions
  lifecycle : Lifecycle
  reason? : Option String
  channel : List (Command E)
  tags : List Tag
  unseen : Bool
  inputEnded : Bool
  activity : Activity
  nextTick : Instant
  /-- How many bytes wait for the rest of their frame. -/
  pending : Nat
  protocolErrors : UInt64
  connectionErrors : UInt64
  /-- The packets that the listener was given. -/
  received : List (Packet E)

namespace Session

/-- Whether a program that is run here only reconfigures the session and ends well. -/
def abides : Script E N → Session E N → Bool
  | .done result, _ => result.isOk
  | .note note next, session => abides next (session.log (.note note))
  | .look next, session => abides (next session.view) session
  | .act action next, session =>
    action.reconfigures && abides (next (session.act action).1) (session.act action).2

/-! ## More bytes at hand -/

/-- The session as if some more bytes had come in, and nothing of the moment. -/
def ahead (session : Session E N) (rest : Bytes) : Session E N :=
  { session with
    surroundings := default
    channel := []
    lastHeard := default
    probe? := none
    codec := session.codec.absorb rest
    outgoing := []
    tags := []
    reading := true
    unseen := false
    inputEnded := false
    readRoom := 0
    activity := .waiting
    nextTick := default }

def standing (session : Session E N) : Standing E N where
  listener := session.listener
  registry := session.registry
  options := session.options
  lifecycle := session.lifecycle
  reason? := session.reason?
  channel := session.channel
  tags := session.tags
  unseen := session.unseen
  inputEnded := session.inputEnded
  activity := session.activity
  nextTick := session.nextTick
  pending := session.codec.pipeline.pending
  protocolErrors := session.metrics.protocolErrors
  connectionErrors := session.metrics.connectionErrors
  received := session.events.filterMap Event.packet?

variable (session : Session E N) (rest : Bytes)

theorem ahead_ahead_nil : (session.ahead rest).ahead [] = session.ahead rest := by
  simp only [ahead, ConnectionCodec.absorb_nil]

theorem view_ahead : (session.ahead rest).view = session.view := by
  simp only [view, ahead, ConnectionCodec.absorb, Pipeline.feed_compressor?,
    Pipeline.feed_isEncrypted]
  rfl

theorem runHook_ahead {hook : Hook E N} (hquiet : hook.IsQuiet) : ∀ session : Session E N,
    (session.runHook hook).ahead rest = (session.ahead rest).runHook hook := by
  induction hquiet with
  | done =>
      intro session
      rfl
  | note _ ih =>
      intro session
      exact ih (session.log _)
  | look _ ih =>
      intro session
      rw [runHook, runHook, runHookBy, runHookBy, view_ahead]
      exact ih session.view session

/-! ## Phases -/

section

variable (hquiet : session.listener.IsQuiet) (phase : Phase)
include hquiet

theorem enterPhase_ahead :
    (session.enterPhase phase).ahead rest = (session.ahead rest).enterPhase phase := by
  rw [enterPhase, enterPhase, runHook_ahead rest (hquiet phase)]
  congr 1
  simp only [ahead, log, showPhase, Session.mk.injEq, true_and, and_true]
  exact (ite_self default).symm

theorem switchPhase_ahead :
    (session.switchPhase phase).ahead rest = (session.ahead rest).switchPhase phase := by
  have hphase : (session.ahead rest).codec.phase = session.codec.phase := rfl
  rw [switchPhase, switchPhase, hphase]
  split
  · rfl
  · exact enterPhase_ahead (session.retunePhase phase) rest hquiet phase

theorem setPhase_ahead :
    (session.ahead rest).setPhase phase
      = ((session.setPhase phase).1, (session.setPhase phase).2.ahead rest) := by
  have hphase : (session.ahead rest).codec.phase = session.codec.phase := rfl
  rw [setPhase, setPhase, hphase]
  split
  · rw [switchPhase_ahead session rest hquiet]
  · rfl

end

/-! ## The pipeline -/

theorem encrypt_ahead (key : Bytes) :
    (session.ahead rest).encrypt key
      = ((session.encrypt key).1, (session.encrypt key).2.ahead rest) := by
  have hpipeline : (session.ahead rest).codec.pipeline = session.codec.pipeline.feed rest := rfl
  simp only [encrypt, hpipeline, Pipeline.feed_isEncrypted]
  split
  · rfl
  · cases Cipher.ofKey key with
    | error fault => rfl
    | ok cipher =>
        dsimp only
        rw [Pipeline.insert_feed]
        cases session.codec.pipeline.insert (.before StageKind.framer.name) (.cipher cipher) with
        | error fault => rfl
        | ok pipeline => rfl

theorem setThreshold_ahead (threshold : Int32) :
    (session.ahead rest).setThreshold threshold
      = ((session.setThreshold threshold).1, (session.setThreshold threshold).2.ahead rest) := by
  have hpipeline : (session.ahead rest).codec.pipeline = session.codec.pipeline.feed rest := rfl
  have hoptions : (session.ahead rest).options = session.options := rfl
  rw [setThreshold, setThreshold, hpipeline, Pipeline.remove_feed]
  split
  · rcases session.codec.pipeline.remove StageKind.compression.name with fault | ⟨kind?, pipeline⟩
    · rfl
    · rfl
  · simp only [compressFrom, hpipeline, hoptions, Pipeline.feed_compressor?, Pipeline.retune_feed,
      Pipeline.insert_feed]
    split
    · rfl
    · rcases session.codec.pipeline.insert _ _ with fault | pipeline
      · rfl
      · rfl

theorem enableCompression_ahead :
    (session.ahead rest).enableCompression
      = (session.enableCompression.1, session.enableCompression.2.ahead rest) := by
  have hoptions : (session.ahead rest).options = session.options := rfl
  rw [enableCompression, enableCompression, hoptions]
  cases session.options.threshold? with
  | none => rfl
  | some threshold =>
      dsimp only
      rw [setThreshold_ahead]

/-! ## Standing -/

theorem standing_log {event : Event E N} (hevent : event.packet? = none) :
    (session.log event).standing = session.standing := by
  simp [standing, log, registry, metrics, hevent]

theorem standing_runHook {hook : Hook E N} (hquiet : hook.IsQuiet) : ∀ session : Session E N,
    (session.runHook hook).standing = session.standing := by
  induction hquiet with
  | done =>
      intro session
      rfl
  | note _ ih =>
      intro session
      exact (ih (session.log _)).trans (session.standing_log rfl)
  | look _ ih =>
      intro session
      exact ih session.view session

theorem standing_switchPhase (hquiet : session.listener.IsQuiet) (phase : Phase) :
    (session.switchPhase phase).standing = session.standing := by
  rw [switchPhase]
  split
  · rfl
  · have hhook : ((session.retunePhase phase).listener.onPhase phase).IsQuiet := hquiet phase
    rw [enterPhase, standing_runHook hhook, standing_log _ rfl]
    rfl

theorem standing_setPhase (hquiet : session.listener.IsQuiet) (phase : Phase) :
    (session.setPhase phase).2.standing = session.standing := by
  rw [setPhase]
  split
  · exact session.standing_switchPhase hquiet phase
  · rfl

theorem standing_withPipeline {pipeline : Pipeline}
    (hpending : pipeline.pending = session.codec.pipeline.pending) :
    (session.withPipeline pipeline).standing = session.standing := by
  simp [standing, withPipeline, registry, metrics, ConnectionCodec.registry, hpending]

theorem standing_encrypt (key : Bytes) : (session.encrypt key).2.standing = session.standing := by
  simp only [encrypt]
  split
  · rfl
  · split
    · rfl
    · split
      · rfl
      · rename_i pipeline hinsert
        exact session.standing_withPipeline (Pipeline.insert_pending hinsert)

theorem standing_setThreshold (threshold : Int32) :
    (session.setThreshold threshold).2.standing = session.standing := by
  rw [setThreshold]
  split
  · split
    · rfl
    · rename_i kind? pipeline hremove
      exact session.standing_withPipeline (Pipeline.remove_pending hremove)
  · simp only [compressFrom]
    split
    · exact session.standing_withPipeline rfl
    · split
      · rfl
      · rename_i pipeline hinsert
        exact session.standing_withPipeline (Pipeline.insert_pending hinsert)

theorem standing_enableCompression :
    session.enableCompression.2.standing = session.standing := by
  rw [enableCompression]
  split
  · rfl
  · exact session.standing_setThreshold _

theorem standing_act (hquiet : session.listener.IsQuiet) {action : Action E}
    (haction : action.reconfigures = true) :
    (session.act action).2.standing = session.standing := by
  cases action with
  | send packet tag? => cases haction
  | setPhase phase => exact session.standing_setPhase hquiet phase
  | setThreshold threshold => exact session.standing_setThreshold threshold
  | enableCompression => exact session.standing_enableCompression
  | encrypt key => exact session.standing_encrypt key
  | call call => cases haction

/-! ## Programs -/

/-- A listener can reconfigure its session with more bytes at hand as well. -/
theorem act_ahead (hquiet : session.listener.IsQuiet) {action : Action E}
    (haction : action.reconfigures = true) :
    (session.ahead rest).act action
      = ((session.act action).1, (session.act action).2.ahead rest) := by
  cases action with
  | send packet tag? => cases haction
  | setPhase phase => rw [act, act, setPhase_ahead session rest hquiet]
  | setThreshold threshold => rw [act, act, setThreshold_ahead]
  | enableCompression => rw [act, act, enableCompression_ahead]
  | encrypt key => rw [act, act, encrypt_ahead]
  | call call => cases haction

theorem abides_of_isMild {script : Script E N} (h : script.IsMild) : ∀ session : Session E N,
    abides script session = true := by
  induction h with
  | done =>
      intro session
      rfl
  | note _ ih =>
      intro session
      exact ih (session.log _)
  | look _ ih =>
      intro session
      exact ih session.view session
  | act haction _ ih =>
      intro session
      exact Bool.and_eq_true_iff.2 ⟨haction, ih _ _⟩

theorem runScript_abides : ∀ (script : Script E N) (session : Session E N),
    session.listener.IsQuiet → abides script session = true →
    (runScript script session).1 = .ok ()
      ∧ (runScript script session).2.standing = session.standing := by
  intro script
  induction script with
  | done result =>
      intro session _ habides
      cases result with
      | error fault => cases habides
      | ok done => exact ⟨rfl, rfl⟩
  | note note next ih =>
      intro session hquiet habides
      obtain ⟨hresult, hstanding⟩ := ih (session.log (.note note)) hquiet habides
      exact ⟨hresult, hstanding.trans (session.standing_log rfl)⟩
  | look next ih =>
      intro session hquiet habides
      exact ih session.view session hquiet habides
  | act action next ih =>
      intro session hquiet habides
      obtain ⟨haction, habides⟩ := Bool.and_eq_true_iff.1 habides
      have hact := session.standing_act hquiet haction
      have hlistener : (session.act action).2.listener = session.listener :=
        congrArg Standing.listener hact
      obtain ⟨hresult, hstanding⟩ :=
        ih (session.act action).1 (session.act action).2 (hlistener ▸ hquiet) habides
      exact ⟨hresult, hstanding.trans hact⟩

/-- It could not tell whether there are more bytes at hand. -/
theorem abides_ahead : ∀ (script : Script E N) (session : Session E N),
    session.listener.IsQuiet → abides script (session.ahead rest) = abides script session := by
  intro script
  induction script with
  | done result =>
      intro session _
      rfl
  | note note next ih =>
      intro session hquiet
      exact ih (session.log (.note note)) hquiet
  | look next ih =>
      intro session hquiet
      rw [abides, abides, view_ahead]
      exact ih session.view session hquiet
  | act action next ih =>
      intro session hquiet
      rw [abides, abides]
      by_cases haction : action.reconfigures = true
      · have hlistener : (session.act action).2.listener = session.listener :=
          congrArg Standing.listener (session.standing_act hquiet haction)
        rw [act_ahead session rest hquiet haction,
          ih (session.act action).1 (session.act action).2 (hlistener ▸ hquiet)]
      · rw [Bool.not_eq_true] at haction
        rw [haction, Bool.false_and, Bool.false_and]

theorem runScript_ahead : ∀ (script : Script E N) (session : Session E N),
    session.listener.IsQuiet → abides script session = true →
    runScript script (session.ahead rest)
      = ((runScript script session).1, (runScript script session).2.ahead rest) := by
  intro script
  induction script with
  | done result =>
      intro session _ _
      rfl
  | note note next ih =>
      intro session hquiet habides
      exact ih (session.log (.note note)) hquiet habides
  | look next ih =>
      intro session hquiet habides
      rw [runScript, runScript, view_ahead]
      exact ih session.view session hquiet habides
  | act action next ih =>
      intro session hquiet habides
      obtain ⟨haction, habides⟩ := Bool.and_eq_true_iff.1 habides
      have hlistener : (session.act action).2.listener = session.listener :=
        congrArg Standing.listener (session.standing_act hquiet haction)
      rw [runScript, runScript, act_ahead session rest hquiet haction]
      exact ih (session.act action).1 (session.act action).2 (hlistener ▸ hquiet) habides

/-! ## Writing -/

/-- Two sessions of which one is ahead of the other move to a phase together. -/
theorem approach_ahead (hquiet : session.listener.IsQuiet) (phase : Phase) :
    ((session.ahead rest).approach phase).ahead [] = (session.approach phase).ahead rest := by
  have hphase : (session.ahead rest).codec.phase = session.codec.phase := rfl
  rw [approach, approach, hphase]
  split
  · exact session.ahead_ahead_nil rest
  · rw [switchPhase_ahead { session with reading := false } rest hquiet,
      switchPhase_ahead { session.ahead rest with reading := false } [] hquiet]
    exact congrArg (switchPhase · phase) (session.ahead_ahead_nil rest)

variable {session rest}

theorem codec_of_ahead {mirror : Session E N} (h : mirror.ahead [] = session.ahead rest) :
    mirror.codec = session.codec.absorb rest := by
  have hcodec : mirror.codec.absorb [] = session.codec.absorb rest := congrArg codec h
  rwa [ConnectionCodec.absorb_nil] at hcodec

theorem encode_ahead {mirror : Session E N} (h : mirror.ahead [] = session.ahead rest)
    (packet : Packet E) (tag? : Option Tag) :
    (mirror.encode packet tag?).1 = (session.encode packet tag?).1
      ∧ ((session.encode packet tag?).1 = .ok () →
        (mirror.encode packet tag?).2.ahead [] = (session.encode packet tag?).2.ahead rest) := by
  rw [encode, encode, codec_of_ahead h, ConnectionCodec.encode_absorb]
  cases session.codec.encode packet with
  | error fault => exact ⟨rfl, fun hok => by cases hok⟩
  | ok result =>
      obtain ⟨sent, codec⟩ := result
      refine ⟨rfl, fun _ => ?_⟩
      show ({ mirror.ahead [] with codec := (codec.absorb rest).absorb [] } : Session E N).log
          (.written packet)
        = ({ session.ahead rest with codec := codec.absorb rest } : Session E N).log
          (.written packet)
      rw [h, ConnectionCodec.absorb_nil]

variable (session rest)

theorem write_ahead (hquiet : session.listener.IsQuiet) (packet : Packet E) (tag? : Option Tag) :
    ((session.ahead rest).write packet tag?).1 = (session.write packet tag?).1
      ∧ ((session.write packet tag?).1 = .ok () →
        ((session.ahead rest).write packet tag?).2.ahead []
          = (session.write packet tag?).2.ahead rest) := by
  have hclosed : (session.ahead rest).isClosed = session.isClosed := rfl
  have hregistry : (session.ahead rest).registry = session.registry := rfl
  rw [write, write, hclosed, hregistry]
  split
  · refine ⟨rfl, fun _ => ?_⟩
    cases tag? with
    | none => exact session.ahead_ahead_nil rest
    | some tag => exact congrArg (log · _) (session.ahead_ahead_nil rest)
  · cases session.registry.ofPacket packet with
    | error fault => exact ⟨rfl, fun hok => by cases hok⟩
    | ok descriptor =>
        exact encode_ahead (session.approach_ahead rest hquiet descriptor.phase) packet tag?

variable {packet : Packet E}

theorem standing_encode (hok : (session.encode packet none).1 = .ok ()) :
    (session.encode packet none).2.standing = session.standing := by
  rw [encode] at hok ⊢
  split at hok
  · rename_i sent codec hcodec
    obtain ⟨payload, pipeline, -, hpipeline, rfl⟩ := ConnectionCodec.encode_eq_ok hcodec
    have hpending : pipeline.pending = session.codec.pipeline.pending :=
      congrArg List.length (Pipeline.encode_staged hpipeline)
    have hcount : (ConnectionCodec.count session.codec.metrics sent).protocolErrors
          = session.codec.metrics.protocolErrors
        ∧ (ConnectionCodec.count session.codec.metrics sent).connectionErrors
          = session.codec.metrics.connectionErrors := by
      rw [ConnectionCodec.count]
      split
      · exact ⟨rfl, rfl⟩
      · exact ⟨rfl, rfl⟩
    rw [standing_log _ rfl]
    simp [standing, registry, metrics, ConnectionCodec.registry, hpending, hcount]
  · cases hok

theorem standing_write (hquiet : session.listener.IsQuiet)
    (hok : (session.write packet none).1 = .ok ()) :
    (session.write packet none).2.standing = session.standing := by
  revert hok
  rw [write]
  split
  · exact fun _ => rfl
  · split
    · intro hok
      cases hok
    · rename_i descriptor _
      intro hok
      rw [standing_encode _ hok, approach]
      split
      · rfl
      · exact standing_switchPhase { session with reading := false } hquiet descriptor.phase

end Session
end PhaseWire
