import PhaseWire.Packet.Core

/-
# Packets as named fields

For logs and scripts a core packet is a list of values under fixed names.
`CorePacket.named` gives the list and `CorePacket.ofNamed` builds a packet
from any source of values, so it needs no list.
-/

namespace PhaseWire

inductive FieldValue
  | text (value : String)
  | bytes (value : Bytes)
  | number (value : Int)
  deriving DecidableEq, Repr

/-- Where the values of fields are found by name. -/
structure FieldSource where
  text : String → String
  bytes : String → Bytes
  number : String → Int

namespace CorePacket

def named : CorePacket → List (String × FieldValue)
  | handshake protocolVersion serverAddress serverPort intent =>
    [("protocol_version", .number protocolVersion.toInt), ("server_address", .text serverAddress),
      ("server_port", .number serverPort.toNat), ("next_phase", .number intent.toInt)]
  | statusRequest => []
  | statusResponse json => [("json", .text json)]
  | statusPing payload => [("payload", .number payload.toInt)]
  | statusPong payload => [("payload", .number payload.toInt)]
  | loginStart username => [("username", .text username)]
  | loginDisconnect reason => [("reason", .text reason)]
  | encryptionRequest serverId publicKey verifyToken =>
    [("server_id", .text serverId), ("public_key", .bytes publicKey),
      ("verify_token", .bytes verifyToken)]
  | encryptionResponse sharedSecret verifyToken =>
    [("shared_secret", .bytes sharedSecret), ("verify_token", .bytes verifyToken)]
  | loginSuccess uuid username => [("uuid", .text uuid), ("username", .text username)]
  | setCompression threshold => [("threshold", .number threshold.toInt)]
  | clientboundKeepAlive id => [("id", .number id.toInt)]
  | serverboundKeepAlive id => [("id", .number id.toInt)]
  | playDisconnect reason => [("reason", .text reason)]

/-- The packet of a type whose fields have the values of a source. -/
def ofNamed (kind : CoreKind) (source : FieldSource) : CorePacket :=
  let text := source.text
  let bytes := source.bytes
  let int32 (name : String) := Int32.ofInt (source.number name)
  let int64 (name : String) := Int64.ofInt (source.number name)
  match kind with
  | .handshake =>
    handshake (int32 "protocol_version") (text "server_address")
      (.ofNat (source.number "server_port").toNat) (int32 "next_phase")
  | .statusRequest => statusRequest
  | .statusResponse => statusResponse (text "json")
  | .statusPing => statusPing (int64 "payload")
  | .statusPong => statusPong (int64 "payload")
  | .loginStart => loginStart (text "username")
  | .loginDisconnect => loginDisconnect (text "reason")
  | .encryptionRequest =>
    encryptionRequest (text "server_id") (bytes "public_key") (bytes "verify_token")
  | .encryptionResponse => encryptionResponse (bytes "shared_secret") (bytes "verify_token")
  | .loginSuccess => loginSuccess (text "uuid") (text "username")
  | .setCompression => setCompression (int32 "threshold")
  | .clientboundKeepAlive => clientboundKeepAlive (int32 "id")
  | .serverboundKeepAlive => serverboundKeepAlive (int32 "id")
  | .playDisconnect => playDisconnect (text "reason")

end CorePacket
end PhaseWire
