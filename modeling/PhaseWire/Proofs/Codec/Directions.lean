import PhaseWire.Proofs.Codec.Outlet
import PhaseWire.Proofs.Pipeline.Order

/-
# The two directions of a connection do not disturb each other

Sending and receiving use the same stages, the same phase and the same
counters.  Yet there is a part of a connection that is enough to receive
with (`ConnectionCodec.inward`): it lacks the register that encrypts, what
is counted of packets sent, and the output.  Another part is enough to send
with (`ConnectionCodec.outward`): it lacks the register that decrypts, the
staged bytes and what is counted of packets received.

The module turns on `Isolates`: a part of a state isolates some deeds from
the others if it decides the replies to the former and is not touched by
the latter.  Then the latter may be left out of any run, and the replies to
the former stay the same (`Isolates.trace_filter`).  It is used twice, once
for each direction.
-/

namespace PhaseWire

/-! ## Runs and parts of states -/

section

variable {σ τ δ ρ : Type}

def trace (act : σ → δ → ρ × σ) : σ → List δ → List (δ × ρ) × σ
  | state, [] => ([], state)
  | state, deed :: deeds =>
    let (reply, next) := act state deed
    let (events, last) := trace act next deeds
    ((deed, reply) :: events, last)

/-- Two machines that reply alike to one deed reply alike to many. -/
theorem trace_map {act : σ → δ → ρ × σ} {other : τ → δ → ρ × τ} {image : σ → τ}
    (h : ∀ state deed, other (image state) deed
      = ((act state deed).1, image (act state deed).2)) :
    ∀ (deeds : List δ) (state : σ), trace other (image state) deeds
      = ((trace act state deeds).1, image (trace act state deeds).2) := by
  intro deeds
  induction deeds with
  | nil => intro state; rfl
  | cons deed deeds ih =>
      intro state
      rw [trace, h]
      simp only [ih]
      rfl

/-- A part of a state that the deeds in sight depend on and the others leave as it is. -/
structure Isolates (act : σ → δ → ρ × σ) (part : σ → σ) (inSight : δ → Bool) : Prop where
  unseen : ∀ state deed, inSight deed = false → part (act state deed).2 = part state
  reply : ∀ state deed, inSight deed → (act (part state) deed).1 = (act state deed).1
  next : ∀ state deed, inSight deed → part (act (part state) deed).2 = part (act state deed).2

/-- What is out of sight may be left out: in any run, and from any state with the same part. -/
theorem Isolates.trace_filter {act : σ → δ → ρ × σ} {part : σ → σ} {inSight : δ → Bool}
    (h : Isolates act part inSight) : ∀ (deeds : List δ) {state other : σ},
      part state = part other →
      (trace act other (deeds.filter inSight)).1
          = (trace act state deeds).1.filter (fun event => inSight event.1)
        ∧ part (trace act other (deeds.filter inSight)).2 = part (trace act state deeds).2 := by
  intro deeds
  induction deeds with
  | nil => intro state other hpart; exact ⟨rfl, hpart.symm⟩
  | cons deed deeds ih =>
      intro state other hpart
      cases hsight : inSight deed with
      | false =>
          have hnext : part (act state deed).2 = part other :=
            (h.unseen state deed hsight).trans hpart
          obtain ⟨hevents, hlast⟩ := ih hnext
          simp only [trace, List.filter_cons, hsight]
          exact ⟨hevents, hlast⟩
      | true =>
          have hreply : (act other deed).1 = (act state deed).1 := by
            rw [← h.reply other deed hsight, ← h.reply state deed hsight, hpart]
          have hnext : part (act state deed).2 = part (act other deed).2 := by
            rw [← h.next state deed hsight, ← h.next other deed hsight, hpart]
          obtain ⟨hevents, hlast⟩ := ih hnext
          simp only [trace, List.filter_cons, hsight, if_true]
          exact ⟨by rw [hevents, hreply], hlast⟩

end

/-! ## What each direction needs of the stages -/

namespace Pipeline

variable {pipeline : Pipeline}

/-- The stages without the register that encrypts. -/
def inward (pipeline : Pipeline) : Pipeline :=
  { pipeline with
    cipher? := pipeline.cipher?.map fun cipher => { cipher with outgoing := default } }

/-- The stages without the register that decrypts and without what is staged. -/
def outward (pipeline : Pipeline) : Pipeline :=
  { pipeline with
    cipher? := pipeline.cipher?.map fun cipher => { cipher with incoming := default }
    staged := [] }

@[simp] theorem inward_kinds (pipeline : Pipeline) : pipeline.inward.kinds = pipeline.kinds := by
  obtain ⟨cipher?, maxBody, compressor?, staged⟩ := pipeline
  cases cipher? <;> rfl

@[simp] theorem outward_kinds (pipeline : Pipeline) : pipeline.outward.kinds = pipeline.kinds := by
  obtain ⟨cipher?, maxBody, compressor?, staged⟩ := pipeline
  cases cipher? <;> rfl

@[simp] theorem inward_inward (pipeline : Pipeline) : pipeline.inward.inward = pipeline.inward := by
  obtain ⟨cipher?, maxBody, compressor?, staged⟩ := pipeline
  cases cipher? <;> rfl

@[simp] theorem outward_outward (pipeline : Pipeline) :
    pipeline.outward.outward = pipeline.outward := by
  obtain ⟨cipher?, maxBody, compressor?, staged⟩ := pipeline
  cases cipher? <;> rfl

/-! ### Receiving -/

theorem feed_inward (pipeline : Pipeline) (incoming : Bytes) :
    pipeline.inward.feed incoming = (pipeline.feed incoming).inward := by
  obtain ⟨cipher?, maxBody, compressor?, staged⟩ := pipeline
  cases cipher? <;> rfl

theorem next_inward (pipeline : Pipeline) :
    pipeline.inward.next = (pipeline.next.1, pipeline.next.2.inward) := by
  simp only [next, inward]
  rcases Frame.decode pipeline.maxBody pipeline.staged with fault | _ | ⟨body, staged⟩
  · rfl
  · rfl
  · rfl

theorem decode_inward (pipeline : Pipeline) (incoming : Bytes) :
    pipeline.inward.decode incoming
      = ((pipeline.decode incoming).1, (pipeline.decode incoming).2.inward) := by
  rw [decode, feed_inward, next_inward]
  rfl

theorem feed_outward (pipeline : Pipeline) (incoming : Bytes) :
    (pipeline.feed incoming).outward = pipeline.outward := by
  obtain ⟨cipher?, maxBody, compressor?, staged⟩ := pipeline
  cases cipher? <;> rfl

theorem next_outward (pipeline : Pipeline) : pipeline.next.2.outward = pipeline.outward := by
  rw [next]
  split <;> rfl

theorem decode_outward (pipeline : Pipeline) (incoming : Bytes) :
    (pipeline.decode incoming).2.outward = pipeline.outward := by
  rw [decode, next_outward, feed_outward]

/-! ### Sending -/

theorem sealFrame_inward (pipeline : Pipeline) (frame : Bytes) :
    (pipeline.sealFrame frame).2.inward = pipeline.inward := by
  obtain ⟨cipher?, maxBody, compressor?, staged⟩ := pipeline
  cases cipher? <;> rfl

theorem sealFrame_outward (pipeline : Pipeline) (frame : Bytes) :
    pipeline.outward.sealFrame frame
      = ((pipeline.sealFrame frame).1, (pipeline.sealFrame frame).2.outward) := by
  obtain ⟨cipher?, maxBody, compressor?, staged⟩ := pipeline
  cases cipher? <;> rfl

theorem encode_inward {payload : Bytes} {sent : Sent} {next : Pipeline}
    (h : pipeline.encode payload = .ok (sent, next)) : next.inward = pipeline.inward := by
  obtain ⟨body, frame, -, -, hseal⟩ := encode_eq_ok h
  exact (congrArg (fun sealed => sealed.2.inward) hseal).trans (sealFrame_inward pipeline frame)

theorem encode_outward (pipeline : Pipeline) (payload : Bytes) :
    pipeline.outward.encode payload
      = (pipeline.encode payload).map fun (sent, next) => (sent, next.outward) := by
  have hwrap : pipeline.outward.wrap payload = pipeline.wrap payload := rfl
  have hmax : pipeline.outward.maxBody = pipeline.maxBody := rfl
  simp only [encode, hwrap, hmax]
  rcases pipeline.wrap payload with fault | ⟨body, compressed⟩
  · rfl
  · dsimp only
    cases Frame.encode pipeline.maxBody body with
    | error fault => rfl
    | ok frame =>
        dsimp only
        rw [sealFrame_outward]
        rfl

/-! ### Changes -/

/-- What is told of a change depends on the kinds of stages that are installed. -/
theorem use_change_congr {other : Pipeline} (h : pipeline.kinds = other.kinds) (change : Change) :
    (pipeline.use (.change change)).1 = (other.use (.change change)).1 := by
  cases change with
  | insert place stage =>
      simp only [use]
      rcases insert_cases h place stage with ⟨-, hone, htwo⟩ | ⟨fault, hone, htwo⟩
      · rw [hone, htwo]
        rfl
      · rw [hone, htwo]
        rfl
  | remove name =>
      simp only [use]
      rcases remove_cases h name with ⟨_, hone, htwo⟩ | ⟨_, hone, htwo⟩ | ⟨fault, hone, htwo⟩
      · rw [hone, htwo]
        rfl
      · rw [hone, htwo]
        rfl
      · rw [hone, htwo]
        rfl
  | retune threshold => rfl

theorem change_inward (pipeline : Pipeline) (change : Change) :
    (pipeline.inward.change change).inward = (pipeline.change change).inward := by
  rcases change_cases (inward_kinds pipeline) change with
    ⟨hone, htwo⟩ | ⟨place, cipher, -, -, hone, htwo⟩ | ⟨update, hone, htwo⟩
  · rw [hone, htwo, inward_inward]
  · rw [hone, htwo]
    rfl
  · rw [hone, htwo]
    exact congrArg (fun part : Pipeline => { part with compressor? := update part.compressor? })
      (inward_inward pipeline)

theorem change_outward (pipeline : Pipeline) (change : Change) :
    (pipeline.outward.change change).outward = (pipeline.change change).outward := by
  rcases change_cases (outward_kinds pipeline) change with
    ⟨hone, htwo⟩ | ⟨place, cipher, -, -, hone, htwo⟩ | ⟨update, hone, htwo⟩
  · rw [hone, htwo, outward_outward]
  · rw [hone, htwo]
    rfl
  · rw [hone, htwo]
    exact congrArg (fun part : Pipeline => { part with compressor? := update part.compressor? })
      (outward_outward pipeline)

end Pipeline

/-! ## What each direction needs of a connection -/

/-- The counters without those of packets that were sent. -/
def Metrics.inward (metrics : Metrics) : Metrics :=
  { metrics with packetsSent := 0, bytesSent := 0, framesCompressed := 0 }

/-- The counters without those of packets that were received. -/
def Metrics.outward (metrics : Metrics) : Metrics :=
  { metrics with packetsReceived := 0, bytesReceived := 0 }

variable {E : Type} [CustomPackets E]

namespace ConnectionCodec

variable {codec next : ConnectionCodec E}

/-- All that receiving reads and changes. -/
def inward (codec : ConnectionCodec E) : ConnectionCodec E :=
  { codec with pipeline := codec.pipeline.inward, metrics := codec.metrics.inward }

/-- All that sending reads and changes. -/
def outward (codec : ConnectionCodec E) : ConnectionCodec E :=
  { codec with pipeline := codec.pipeline.outward, metrics := codec.metrics.outward }

theorem receive_inward (codec : ConnectionCodec E) (payload : Bytes) :
    codec.inward.receive payload
      = ((codec.receive payload).1, (codec.receive payload).2.inward) := by
  simp only [receive, inward]
  cases codec.packets.decode payload with
  | error fault => rfl
  | ok packet => rfl

theorem receive_outward (codec : ConnectionCodec E) (payload : Bytes) :
    (codec.receive payload).2.outward = codec.outward := by
  rw [receive]
  split
  · rfl
  · rfl

theorem decode_inward (codec : ConnectionCodec E) (incoming : Bytes) :
    codec.inward.decode incoming
      = ((codec.decode incoming).1, (codec.decode incoming).2.inward) := by
  have hpipeline := codec.pipeline.decode_inward incoming
  simp only [decode]
  rw [inward]
  simp only [hpipeline]
  rcases codec.pipeline.decode incoming with ⟨fault | _ | payload, pipeline⟩
  · rfl
  · rfl
  · exact receive_inward { codec with pipeline } payload

theorem decode_outward (codec : ConnectionCodec E) (incoming : Bytes) :
    (codec.decode incoming).2.outward = codec.outward := by
  have hpipeline := codec.pipeline.decode_outward incoming
  rw [decode]
  generalize codec.pipeline.decode incoming = found at hpipeline
  obtain ⟨result, pipeline⟩ := found
  have hcodec : ({ codec with pipeline } : ConnectionCodec E).outward = codec.outward := by
    rw [outward, outward, ← hpipeline]
  rcases result with fault | _ | payload
  · exact hcodec
  · exact hcodec
  · exact (receive_outward _ payload).trans hcodec

@[simp] theorem inward_inward (codec : ConnectionCodec E) : codec.inward.inward = codec.inward := by
  simp only [inward, Pipeline.inward_inward, Metrics.inward]

@[simp] theorem outward_outward (codec : ConnectionCodec E) :
    codec.outward.outward = codec.outward := by
  simp only [outward, Pipeline.outward_outward, Metrics.outward]

theorem operate_inward (codec : ConnectionCodec E) (operation : Operation) :
    (codec.inward.operate operation).inward = (codec.operate operation).inward := by
  cases operation with
  | enter phase => simp only [operate, setPhase, inward, Pipeline.inward_inward, Metrics.inward]
  | change change => simp only [operate, inward, Pipeline.change_inward, Metrics.inward]

theorem operate_outward (codec : ConnectionCodec E) (operation : Operation) :
    (codec.outward.operate operation).outward = (codec.operate operation).outward := by
  cases operation with
  | enter phase => simp only [operate, setPhase, outward, Pipeline.outward_outward, Metrics.outward]
  | change change => simp only [operate, outward, Pipeline.change_outward, Metrics.outward]

theorem count_inward (metrics : Metrics) (sent : Pipeline.Sent) :
    (count metrics sent).inward = metrics.inward := by
  rw [count]
  split <;> rfl

theorem count_outward (metrics : Metrics) (sent : Pipeline.Sent) :
    (count metrics sent).outward = count metrics.outward sent := by
  rw [count, count]
  split <;> rfl

theorem encode_inward {packet : Packet E} {sent : Pipeline.Sent}
    (h : codec.encode packet = .ok (sent, next)) : next.inward = codec.inward := by
  obtain ⟨payload, pipeline, -, hpipeline, rfl⟩ := encode_eq_ok h
  rw [inward, inward, count_inward, Pipeline.encode_inward hpipeline]

theorem encode_outward (codec : ConnectionCodec E) (packet : Packet E) :
    codec.outward.encode packet
      = (codec.encode packet).map fun (sent, next) => (sent, next.outward) := by
  simp only [encode, outward]
  cases codec.packets.encode packet with
  | error fault => rfl
  | ok payload =>
      simp only [Pipeline.encode_outward]
      cases codec.pipeline.encode payload with
      | error fault => rfl
      | ok found =>
          obtain ⟨sent, pipeline⟩ := found
          simp only [Except.map, count_outward]

end ConnectionCodec

/-! ## A connection in use -/

inductive Deed (E : Type)
  | operate (operation : ConnectionCodec.Operation)
  | encode (packet : Packet E)
  | decode (incoming : Bytes)

namespace Deed

def isEncode : Deed E → Bool
  | encode _ => true
  | operate _ | decode _ => false

def isDecode : Deed E → Bool
  | decode _ => true
  | operate _ | encode _ => false

end Deed

/-- What a deed is answered with.  To a packet that was to be sent belongs the output as it is
then. -/
inductive Deed.Reply (E : Type)
  | entered
  | changed (answer : Pipeline.Answer)
  | sent (result : Except Fault Unit) (output : Bytes)
  | received (result : Except Fault (Option (Packet E)))

namespace Outlet

/-- Takes in bytes from the wire and gives the next packet, if a whole frame is there. -/
def decode (outlet : Outlet E) (incoming : Bytes) :
    Except Fault (Option (Packet E)) × Outlet E :=
  match outlet.chain.decode incoming with
  | (.error fault, chain) => (.error fault, { outlet with chain })
  | (.ok none, chain) => (.ok none, { outlet with chain })
  | (.ok (some payload), chain) =>
    match outlet.packets.decode payload with
    | .error fault => (.error fault, { outlet with chain })
    | .ok packet =>
      (.ok (some packet),
        { outlet with
          chain, metrics := outlet.metrics.received (UInt64.ofNat payload.length) })

def act (spill : Packet E → Bytes) (outlet : Outlet E) : Deed E → Deed.Reply E × Outlet E
  | .operate (.enter phase) => (.entered, { outlet with packets := { outlet.packets with phase } })
  | .operate (.change change) =>
    let (answer, chain) := outlet.chain.use (.change change)
    (.changed answer, { outlet with chain })
  | .encode packet =>
    let (result, next) := outlet.encode spill packet
    (.sent result next.output, next)
  | .decode incoming => (outlet.decode incoming).map .received id

end Outlet

structure Line (E : Type) [CustomPackets E] where
  codec : ConnectionCodec E
  output : Bytes

namespace Line

def outlet (line : Line E) : Outlet E :=
  line.codec.outlet line.output

def act (line : Line E) : Deed E → Deed.Reply E × Line E
  | .operate (.enter phase) => (.entered, { line with codec := line.codec.setPhase phase })
  | .operate (.change change) =>
    let (answer, pipeline) := line.codec.pipeline.use (.change change)
    (.changed answer, { line with codec := { line.codec with pipeline } })
  | .encode packet =>
    match line.codec.encode packet with
    | .error fault => (.sent (.error fault) line.output, line)
    | .ok (sent, codec) =>
      let output := line.output ++ sent.wire
      (.sent (.ok ()) output, ⟨codec, output⟩)
  | .decode incoming =>
    let (result, codec) := line.codec.decode incoming
    (.received result, { line with codec })

/-- All that receiving reads and changes. -/
def inward (line : Line E) : Line E :=
  ⟨line.codec.inward, []⟩

/-- All that sending reads and changes. -/
def outward (line : Line E) : Line E :=
  { line with codec := line.codec.outward }

/-! ### In place and by value -/

theorem outlet_decode (line : Line E) (incoming : Bytes) :
    line.outlet.decode incoming
      = ((line.codec.decode incoming).1, (line.codec.decode incoming).2.outlet line.output) := by
  have hchain := line.codec.pipeline.decode_chain incoming
  simp only [Outlet.decode, outlet, ConnectionCodec.outlet, hchain, Pipeline.asChain,
    ConnectionCodec.decode]
  rcases line.codec.pipeline.decode incoming with ⟨fault | _ | payload, pipeline⟩
  · rfl
  · rfl
  · simp only [ConnectionCodec.receive]
    cases line.codec.packets.decode payload with
    | error fault => rfl
    | ok packet => rfl

theorem outlet_act (spill : Packet E → Bytes) (line : Line E) (deed : Deed E) :
    line.outlet.act spill deed = ((line.act deed).1, (line.act deed).2.outlet) := by
  cases deed with
  | operate operation =>
      cases operation with
      | enter phase => rfl
      | change change =>
          have hchain := line.codec.pipeline.use_chain (.change change)
          simp only [Outlet.act, outlet, ConnectionCodec.outlet, hchain]
          rfl
  | encode packet =>
      have hencode := line.codec.outlet_encode line.output spill packet
      simp only [Outlet.act, outlet, hencode, act]
      rcases line.codec.encode packet with fault | ⟨sent, codec⟩
      · rfl
      · rfl
  | decode incoming =>
      simp only [Outlet.act, outlet_decode]
      rfl

/-! ### One deed -/

theorem act_operate (line : Line E) (operation : ConnectionCodec.Operation) :
    (line.act (.operate operation)).2 = { line with codec := line.codec.operate operation } := by
  cases operation with
  | enter phase => rfl
  | change change =>
      simp only [act, ConnectionCodec.operate, Pipeline.use_change]

theorem inward_isolates : Isolates (act (E := E)) inward fun deed => !deed.isEncode where
  unseen := by
    intro line deed hsight
    cases deed with
    | operate operation => cases hsight
    | decode incoming => cases hsight
    | encode packet =>
        simp only [act]
        cases hencode : line.codec.encode packet with
        | error fault => rfl
        | ok found =>
            obtain ⟨sent, codec⟩ := found
            simp only [inward, ConnectionCodec.encode_inward hencode]
  reply := by
    intro line deed hsight
    cases deed with
    | operate operation =>
        cases operation with
        | enter phase => rfl
        | change change =>
            exact congrArg Deed.Reply.changed
              (Pipeline.use_change_congr (Pipeline.inward_kinds _) change)
    | encode packet => cases hsight
    | decode incoming => simp only [act, inward, ConnectionCodec.decode_inward]
  next := by
    intro line deed hsight
    cases deed with
    | operate operation =>
        simp only [act_operate, inward, ConnectionCodec.operate_inward]
    | encode packet => cases hsight
    | decode incoming =>
        simp only [act, inward, ConnectionCodec.decode_inward, ConnectionCodec.inward_inward]

theorem outward_isolates : Isolates (act (E := E)) outward fun deed => !deed.isDecode where
  unseen := by
    intro line deed hsight
    cases deed with
    | operate operation => cases hsight
    | encode packet => cases hsight
    | decode incoming => simp only [act, outward, ConnectionCodec.decode_outward]
  reply := by
    intro line deed hsight
    cases deed with
    | operate operation =>
        cases operation with
        | enter phase => rfl
        | change change =>
            exact congrArg Deed.Reply.changed
              (Pipeline.use_change_congr (Pipeline.outward_kinds _) change)
    | encode packet =>
        simp only [act, outward, ConnectionCodec.encode_outward]
        rcases line.codec.encode packet with fault | ⟨sent, codec⟩
        · rfl
        · rfl
    | decode incoming => cases hsight
  next := by
    intro line deed hsight
    cases deed with
    | operate operation =>
        simp only [act_operate, outward, ConnectionCodec.operate_outward]
    | encode packet =>
        simp only [act, outward, ConnectionCodec.encode_outward]
        rcases line.codec.encode packet with fault | ⟨sent, codec⟩
        · simp only [Except.map, ConnectionCodec.outward_outward]
        · simp only [Except.map, ConnectionCodec.outward_outward]
    | decode incoming => cases hsight

end Line

/-! ## Any run -/

open Line in
/-- Take any connection, and any run in which packets are to be sent, bytes come in and stages and
phase are changed, in any order.  Leave out what was to be sent: what is left is answered as in the
whole run, and in the end as many bytes are staged and as many packets are counted as received.
Leave out what came in instead: what is left is answered as in the whole run, down to the output
after each packet, and as much is counted as sent.  The run is one in place, where a packet that
fails may leave anything in its own buffer; it is the run by value. -/
theorem directions_do_not_interfere (spill : Packet E → Bytes) (codec : ConnectionCodec E)
    (output : Bytes) (deeds : List (Deed E)) :
    let start := codec.outlet output
    let whole := trace (Outlet.act spill) start deeds
    let received := trace (Outlet.act spill) start (deeds.filter fun deed => !deed.isEncode)
    let sent := trace (Outlet.act spill) start (deeds.filter fun deed => !deed.isDecode)
    (whole.1 = (trace act ⟨codec, output⟩ deeds).1
      ∧ whole.2 = (trace act ⟨codec, output⟩ deeds).2.outlet)
    ∧ (received.1 = whole.1.filter (fun event => !event.1.isEncode)
      ∧ received.2.chain.staged = whole.2.chain.staged
      ∧ received.2.packets = whole.2.packets
      ∧ received.2.metrics.packetsReceived = whole.2.metrics.packetsReceived
      ∧ received.2.metrics.bytesReceived = whole.2.metrics.bytesReceived)
    ∧ sent.1 = whole.1.filter (fun event => !event.1.isDecode)
      ∧ sent.2.output = whole.2.output
      ∧ sent.2.packets = whole.2.packets
      ∧ sent.2.metrics.packetsSent = whole.2.metrics.packetsSent
      ∧ sent.2.metrics.bytesSent = whole.2.metrics.bytesSent
      ∧ sent.2.metrics.framesCompressed = whole.2.metrics.framesCompressed := by
  have hvalue : ∀ deeds, trace (Outlet.act spill) (codec.outlet output) deeds
      = ((trace act ⟨codec, output⟩ deeds).1, (trace act ⟨codec, output⟩ deeds).2.outlet) :=
    fun deeds => trace_map (outlet_act spill) deeds ⟨codec, output⟩
  obtain ⟨hreceived, hinward⟩ := inward_isolates.trace_filter deeds
    (rfl : inward ⟨codec, output⟩ = inward ⟨codec, output⟩)
  obtain ⟨hsent, houtward⟩ := outward_isolates.trace_filter deeds
    (rfl : outward ⟨codec, output⟩ = outward ⟨codec, output⟩)
  simp only [hvalue, and_self, true_and]
  refine ⟨⟨hreceived, ?_, ?_, ?_, ?_⟩, hsent, ?_, ?_, ?_, ?_, ?_⟩
  · exact congrArg (fun line => line.codec.pipeline.staged) hinward
  · exact congrArg (fun line => line.codec.packets) hinward
  · exact congrArg (fun line => line.codec.metrics.packetsReceived) hinward
  · exact congrArg (fun line => line.codec.metrics.bytesReceived) hinward
  · exact congrArg (fun line => line.output) houtward
  · exact congrArg (fun line => line.codec.packets) houtward
  · exact congrArg (fun line => line.codec.metrics.packetsSent) houtward
  · exact congrArg (fun line => line.codec.metrics.bytesSent) houtward
  · exact congrArg (fun line => line.codec.metrics.framesCompressed) houtward

end PhaseWire
