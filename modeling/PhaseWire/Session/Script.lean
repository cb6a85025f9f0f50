import PhaseWire.Session.Call

/-
# Actions — what happens on the session's own turn

An action takes effect at once, so the next frame is decoded under the new
settings.  To write a packet first moves the session to the packet's
phase.  A packet that cannot be encoded closes the session.
-/

namespace PhaseWire.Session

variable {E N : Type} [CustomPackets E]

/-! ## Phases -/

/-- From here on packets are encoded and decoded in a phase. -/
def retunePhase (session : Session E N) (phase : Phase) : Session E N :=
  { session with codec := session.codec.setPhase phase }

/-- Lets everybody see a new phase.  To enter play counts as a sign of life. -/
def showPhase (session : Session E N) (phase : Phase) : Session E N :=
  { session with
    phase
    lastHeard := if phase = .play then session.surroundings.wall else session.lastHeard }

/-- Takes note of a new phase and tells the listener. -/
def enterPhase (session : Session E N) (phase : Phase) : Session E N :=
  ((session.showPhase phase).log (.phase phase)).runHook (session.listener.onPhase phase)

def switchPhase (session : Session E N) (phase : Phase) : Session E N :=
  if session.codec.phase = phase then session
  else (session.retunePhase phase).enterPhase phase

def setPhase (session : Session E N) (phase : Phase) : Except Fault Unit × Session E N :=
  if session.codec.phase.canMoveTo phase then (.ok (), session.switchPhase phase)
  else
    (.error (.setup s!"cannot move from {session.codec.phase.name} to {phase.name}"), session)

/-! ## Packets -/

/-- Moves to the phase of a packet that is to be written.  No frame is taken in before the packet
is flushed. -/
def approach (session : Session E N) (phase : Phase) : Session E N :=
  if session.codec.phase = phase then session
  else { session with reading := false }.switchPhase phase

def encode (session : Session E N) (packet : Packet E) (tag? : Option Tag) :
    Except Fault Unit × Session E N :=
  match session.codec.encode packet with
  | .ok (sent, codec) =>
    (.ok (),
      { session with
        codec
        outgoing := session.outgoing ++ sent.wire
        tags := session.tags ++ tag?.toList }.log (.written packet))
  | .error fault => (.error fault, (session.complete tag? (.error .closed)).shut fault.message)

/-- Writes a packet.  A closed session only tells the sender. -/
def write (session : Session E N) (packet : Packet E) (tag? : Option Tag) :
    Except Fault Unit × Session E N :=
  if session.isClosed then (.ok (), session.complete tag? (.error .closed))
  else match session.registry.ofPacket packet with
    | .error fault => (.error fault, session)
    | .ok descriptor => (session.approach descriptor.phase).encode packet tag?

/-! ## The pipeline -/

def withPipeline (session : Session E N) (pipeline : Pipeline) : Session E N :=
  { session with codec := { session.codec with pipeline } }

/-- Encrypts both directions from here on. -/
def encrypt (session : Session E N) (key : Bytes) : Except Fault Unit × Session E N :=
  let pipeline := session.codec.pipeline
  if pipeline.isEncrypted then (.error .alreadyEncrypted, session)
  else match Cipher.ofKey key with
    | .error fault => (.error fault, session)
    | .ok cipher =>
      match pipeline.insert (.before StageKind.framer.name) (.cipher cipher) with
      | .error fault => (.error fault, session)
      | .ok pipeline => (.ok (), (session.withPipeline pipeline).count Metrics.encrypted)

def compressorOf (options : SessionOptions) (threshold : Nat) : Compressor :=
  ⟨threshold, options.method, options.level, options.maxUncompressed, options.library⟩

def compressFrom (session : Session E N) (threshold : Nat) : Except Fault Unit × Session E N :=
  let pipeline := session.codec.pipeline
  if pipeline.compressor?.isSome then
    (.ok (), session.withPipeline (pipeline.retune threshold))
  else
    let compressor := compressorOf session.options threshold
    match pipeline.insert (.after StageKind.framer.name) (.compression compressor) with
    | .error fault => (.error fault, session)
    | .ok pipeline => (.ok (), session.withPipeline pipeline)

/-- Compresses from a size on; a negative one means no compression. -/
def setThreshold (session : Session E N) (threshold : Int32) :
    Except Fault Unit × Session E N :=
  if threshold < 0 then
    match session.codec.pipeline.remove StageKind.compression.name with
    | .error fault => (.error fault, session)
    | .ok (_, pipeline) => (.ok (), session.withPipeline pipeline)
  else session.compressFrom threshold.toInt.toNat

/-- Compresses from the size on that the options give, and says which it is. -/
def enableCompression (session : Session E N) : Except Fault (Option Int32) × Session E N :=
  match session.options.threshold? with
  | none => (.ok none, session)
  | some threshold =>
    let (result, session) := session.setThreshold threshold
    (result.map fun _ => some threshold, session)

/-! ## Programs -/

def act (session : Session E N) : Action E → Reply × Session E N
  | .send packet tag? =>
    let (result, session) := session.write packet tag?
    (.outcome result, session)
  | .setPhase phase =>
    let (result, session) := session.setPhase phase
    (.outcome result, session)
  | .setThreshold threshold =>
    let (result, session) := session.setThreshold threshold
    (.outcome result, session)
  | .enableCompression =>
    let (result, session) := session.enableCompression
    (.threshold result, session)
  | .encrypt key =>
    let (result, session) := session.encrypt key
    (.outcome result, session)
  | .call call => session.call call

def runScript : Script E N → Session E N → Except Fault Unit × Session E N
  | .done result, session => (result, session)
  | .note note next, session => runScript next (session.log (.note note))
  | .look next, session => runScript (next session.view) session
  | .act action next, session =>
    let (reply, session) := session.act action
    runScript (next reply) session

end PhaseWire.Session
