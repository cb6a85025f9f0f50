import PhaseWire.Codec.Payload
import PhaseWire.Metrics
import PhaseWire.Pipeline

/-
# `ConnectionCodec` — packets on the wire

Pipeline, packet codec and counters of one connection.  Encoding either
gives the wire bytes of a packet or leaves everything as it was.
-/

namespace PhaseWire

variable {E : Type} [CustomPackets E]

/-- Everything that turns packets into wire bytes and back. -/
structure ConnectionCodec (E : Type) [CustomPackets E] where
  pipeline : Pipeline
  packets : PacketCodec E
  metrics : Metrics

namespace ConnectionCodec

def new (registry : Registry E) (pipeline : Pipeline) : ConnectionCodec E :=
  ⟨pipeline, .new registry, {}⟩

def phase (codec : ConnectionCodec E) : Phase :=
  codec.packets.phase

def registry (codec : ConnectionCodec E) : Registry E :=
  codec.packets.registry

/-- Moves to a phase, without asking whether a connection may. -/
def setPhase (codec : ConnectionCodec E) (phase : Phase) : ConnectionCodec E :=
  { codec with packets := { codec.packets with phase } }

def receive (codec : ConnectionCodec E) (payload : Bytes) :
    Except Fault (Option (Packet E)) × ConnectionCodec E :=
  match codec.packets.decode payload with
  | .error fault => (.error fault, codec)
  | .ok packet =>
    (.ok (some packet),
      { codec with metrics := codec.metrics.received (UInt64.ofNat payload.length) })

/-- Takes in bytes from the wire and gives the next packet, if a whole frame is there. -/
def decode (codec : ConnectionCodec E) (incoming : Bytes) :
    Except Fault (Option (Packet E)) × ConnectionCodec E :=
  match codec.pipeline.decode incoming with
  | (.error fault, pipeline) => (.error fault, { codec with pipeline })
  | (.ok none, pipeline) => (.ok none, { codec with pipeline })
  | (.ok (some payload), pipeline) => { codec with pipeline }.receive payload

def count (metrics : Metrics) (sent : Pipeline.Sent) : Metrics :=
  (if sent.compressed then metrics.compressed else metrics).sent (UInt64.ofNat sent.wire.length)

/-- The wire bytes of a packet. -/
def encode (codec : ConnectionCodec E) (packet : Packet E) :
    Except Fault (Pipeline.Sent × ConnectionCodec E) :=
  match codec.packets.encode packet with
  | .error fault => .error fault
  | .ok payload =>
    match codec.pipeline.encode payload with
    | .error fault => .error fault
    | .ok (sent, pipeline) =>
      .ok (sent, { codec with pipeline, metrics := count codec.metrics sent })

end ConnectionCodec
end PhaseWire
