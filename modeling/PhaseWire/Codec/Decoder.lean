import PhaseWire.Codec.Connection

/-
# `Decoder` — items from a stream that arrives in pieces

A decoder takes in bytes, keeps what is not yet a whole item, and gives
one item at a time.  To drain it is to ask for items until it needs more
bytes; to feed it is to do so after each piece of a stream.  Decoding
stops at the first fault.
-/

namespace PhaseWire

/-- Something that takes in bytes and gives items. -/
structure Decoder (σ α : Type) where
  /-- How many bytes wait for the rest of their item. -/
  pending : σ → Nat
  /-- Takes in bytes and gives the next item, if it is whole. -/
  decode : σ → Bytes → Except Fault (Option α) × σ

structure Decoded (σ α : Type) where
  items : List α
  /-- The fault at which decoding stopped. -/
  fault? : Option Fault
  state : σ

namespace Decoder

variable {σ α : Type}

/-- Asks for at most `fuel` items, after those in `done`, which stand in reverse. -/
def drainFrom (decoder : Decoder σ α) :
    (fuel : Nat) → (done : List α) → σ → Bytes → Decoded σ α
  | 0, done, state, _ => ⟨done.reverse, none, state⟩
  | fuel + 1, done, state, incoming =>
    match decoder.decode state incoming with
    | (.error fault, state) => ⟨done.reverse, some fault, state⟩
    | (.ok none, state) => ⟨done.reverse, none, state⟩
    | (.ok (some item), state) => drainFrom decoder fuel (item :: done) state []

/-- Takes in bytes and asks for items until more bytes are needed.  Each item takes a byte at
least. -/
def drain (decoder : Decoder σ α) (state : σ) (incoming : Bytes) : Decoded σ α :=
  drainFrom decoder (decoder.pending state + incoming.length + 1) [] state incoming

def more (decoder : Decoder σ α) (decoded : Decoded σ α) (piece : Bytes) : Decoded σ α :=
  let next := decoder.drain decoded.state piece
  { next with items := decoded.items ++ next.items }

/-- Takes in piece after piece.  What follows a fault is dropped. -/
def feedFrom (decoder : Decoder σ α) : Decoded σ α → List Bytes → Decoded σ α
  | decoded, [] => decoded
  | decoded, piece :: pieces =>
    if decoded.fault?.isSome then decoded else feedFrom decoder (decoder.more decoded piece) pieces

def feed (decoder : Decoder σ α) (state : σ) (pieces : List Bytes) : Decoded σ α :=
  feedFrom decoder ⟨[], none, state⟩ pieces

end Decoder

/-- Payloads from the wire. -/
def Pipeline.decoder : Decoder Pipeline Bytes :=
  ⟨Pipeline.pending, Pipeline.decode⟩

def ConnectionCodec.decoder {E : Type} [CustomPackets E] :
    Decoder (ConnectionCodec E) (Packet E) :=
  ⟨fun codec => codec.pipeline.pending, ConnectionCodec.decode⟩

end PhaseWire
