import PhaseWire.Codec.Decoder
import PhaseWire.Link.Basic

/-
# What a bare peer does

A peer writes any bytes, or packets under its own codec, for as long as
the session makes room for them.  It reads what the session has written,
and goes on while there is more, since to read makes room as well.
-/

namespace PhaseWire.Link

variable {E N : Type} [CustomPackets E]

def withPeer (link : Link E N) (peer : Peer E) : Link E N :=
  { link with far := .peer peer }

/-! ## Writing -/

/-- Writes bytes and lets the session read, until all are written or there is no room.  Says how
many were written. -/
def pour : (fuel done : Nat) → Bytes → Link E N → Except Fault Nat × Link E N
  | 0, done, _, link => (.ok done, link)
  | fuel + 1, done, bytes, link =>
    if bytes.isEmpty then (.ok done, link)
    else match link.duplex.flip.write bytes with
      | .error fault => (.error fault, link)
      | .ok (count, duplex) =>
        if count = 0 then (.ok done, link)
        else pour fuel (done + count) (bytes.drop count)
          { link with duplex := duplex.flip }.settle

def peerWrite (link : Link E N) (bytes : Bytes) : Except Fault Nat × Link E N :=
  pour bytes.length 0 bytes link

/-- Writes a packet.  The codec has moved on even if the transport is gone. -/
def peerSend (link : Link E N) (peer : Peer E) (packet : Packet E) :
    Except Fault Nat × Link E N :=
  match peer.codec.encode packet with
  | .error fault => (.error fault, link)
  | .ok (sent, codec) => (link.withPeer { peer with codec }).peerWrite sent.wire

/-- Answers the last probe, with an id that is off by `delta`. -/
def peerAnswer (link : Link E N) (peer : Peer E) (delta : Int32) : Except Fault Nat × Link E N :=
  link.peerSend peer (.core (.serverboundKeepAlive (peer.lastProbe?.getD 0 + delta)))

/-! ## Reading -/

structure Reading (E : Type) where
  raw : Bytes
  packets : List (Packet E)
  /-- The fault at which decoding stopped. -/
  fault? : Option Fault
  /-- Whether the session's end is closed. -/
  ended : Bool

/-- Takes what the session has written, at most `left` bytes, and lets it write on. -/
def siphon : (fuel left : Nat) → (taken : Bytes) → Link E N → Bytes × Bool × Link E N
  | 0, _, taken, link => (taken, false, link)
  | fuel + 1, left, taken, link =>
    if left = 0 then (taken, false, link)
    else match link.duplex.flip.read left with
      | (.bytes more, duplex) =>
        siphon fuel (left - more.length) (taken ++ more) { link with duplex := duplex.flip }.settle
      | (.ended, _) => (taken, true, link)
      | _ => (taken, false, link)

def lastProbe? (packets : List (Packet E)) : Option Int32 :=
  packets.reverse.findSome? fun
    | .core (.clientboundKeepAlive id) => some id
    | _ => none

/-- Reads and decodes what the session has written, at most `limit?` bytes. -/
def peerRead (link : Link E N) (peer : Peer E) (limit? : Option Nat) : Reading E × Link E N :=
  let (raw, ended, link) := siphon patience (limit?.getD patience) [] link
  let decoded := ConnectionCodec.decoder.drain peer.codec raw
  let lastProbe? := (lastProbe? decoded.items).or peer.lastProbe?
  (⟨raw, decoded.items, decoded.fault?, ended⟩,
    link.withPeer { peer with codec := decoded.state, lastProbe? })

/-- Gives up the transport. -/
def peerDrop (link : Link E N) (peer : Peer E) : Link E N :=
  { link with duplex := link.duplex.flip.close.flip }.withPeer { peer with gone := true }

/-! ## Settings -/

def peerPhase (link : Link E N) (peer : Peer E) (phase : Phase) : Link E N :=
  link.withPeer { peer with codec := peer.codec.setPhase phase }

def withPipeline (link : Link E N) (peer : Peer E) (pipeline : Pipeline) : Link E N :=
  link.withPeer { peer with codec := { peer.codec with pipeline } }

/-- Encrypts the peer's side. -/
def peerEncrypt (link : Link E N) (peer : Peer E) (key : Bytes) : Except Fault Unit × Link E N :=
  match (do
    let cipher ← Cipher.ofKey key
    peer.codec.pipeline.insert (.before StageKind.framer.name) (.cipher cipher)) with
  | .error fault => (.error fault, link)
  | .ok pipeline => (.ok (), link.withPipeline peer pipeline)

/-- Compresses on the peer's side. -/
def peerCompress (link : Link E N) (peer : Peer E) (compressor : Compressor) :
    Except Fault Unit × Link E N :=
  match peer.codec.pipeline.insert (.after StageKind.framer.name) (.compression compressor) with
  | .error fault => (.error fault, link)
  | .ok pipeline => (.ok (), link.withPipeline peer pipeline)

/-- Stops to compress on the peer's side, and says whether it did. -/
def peerDecompress (link : Link E N) (peer : Peer E) : Except Fault Bool × Link E N :=
  match peer.codec.pipeline.remove StageKind.compression.name with
  | .error fault => (.error fault, link)
  | .ok (removed?, pipeline) => (.ok removed?.isSome, link.withPipeline peer pipeline)

end PhaseWire.Link
