import PhaseWire.Field.Reader
import PhaseWire.Field.Writer

/-
# `CorePacket` — the packets that manage a connection

Every connection needs these whatever the application does in play: the
handshake, the status exchange, login and encryption, the compression
announcement, keepalives and disconnects.  A packet reads and writes its
own fields; its id and length belong to the codec.
-/

namespace PhaseWire

/-! ## Limits of fields -/

namespace Limit

def host : Nat := 255

def username : Nat := 16

def serverId : Nat := 20

/-- Longest identifier in text form, in characters. -/
def uuidText : Nat := 36

def key : Nat := 512

/-- Largest token or encrypted secret in bytes. -/
def token : Nat := 256

/-- Longest text of any packet, in characters. -/
def text : Nat := 32767

/-- Most bytes that a text of so many characters takes with its length. -/
def textBytes (chars : Nat) : Nat :=
  3 + chars * 4

end Limit

/-! ## Kinds -/

inductive CoreKind
  | handshake
  | statusRequest
  | statusResponse
  | statusPing
  | statusPong
  | loginStart
  | loginDisconnect
  | encryptionRequest
  | encryptionResponse
  | loginSuccess
  | setCompression
  | clientboundKeepAlive
  | serverboundKeepAlive
  | playDisconnect
  deriving DecidableEq, Repr, Inhabited

namespace CoreKind

def all : List CoreKind :=
  [.handshake, .statusRequest, .statusResponse, .statusPing, .statusPong, .loginStart,
    .loginDisconnect, .encryptionRequest, .encryptionResponse, .loginSuccess, .setCompression,
    .clientboundKeepAlive, .serverboundKeepAlive, .playDisconnect]

/-- Short name of the packet type. -/
def name : CoreKind → String
  | handshake => "Handshake"
  | statusRequest => "StatusRequest"
  | statusResponse => "StatusResponse"
  | statusPing => "StatusPing"
  | statusPong => "StatusPong"
  | loginStart => "LoginStart"
  | loginDisconnect => "LoginDisconnect"
  | encryptionRequest => "EncryptionRequest"
  | encryptionResponse => "EncryptionResponse"
  | loginSuccess => "LoginSuccess"
  | setCompression => "SetCompression"
  | clientboundKeepAlive => "ClientboundKeepAlive"
  | serverboundKeepAlive => "ServerboundKeepAlive"
  | playDisconnect => "PlayDisconnect"

/-- Full name of the packet type, used in diagnostics. -/
def typeName (kind : CoreKind) : String :=
  "protocol_session::protocol::packets::" ++ kind.name

end CoreKind

/-! ## Packets -/

inductive CorePacket
  /-- First packet of a connection; selects status or login. -/
  | handshake (protocolVersion : Int32) (serverAddress : String) (serverPort : UInt16)
      (intent : Int32)
  | statusRequest
  /-- What a server says about itself, as a document. -/
  | statusResponse (json : String)
  | statusPing (payload : Int64)
  | statusPong (payload : Int64)
  | loginStart (username : String)
  /-- Refusal of a login, with a chat text. -/
  | loginDisconnect (reason : String)
  /-- The server's key and a token to be returned. -/
  | encryptionRequest (serverId : String) (publicKey verifyToken : Bytes)
  /-- The client's secret and the returned token, both encrypted. -/
  | encryptionResponse (sharedSecret verifyToken : Bytes)
  | loginSuccess (uuid username : String)
  /-- Announces the threshold of compression; a negative one switches it off. -/
  | setCompression (threshold : Int32)
  /-- A server's probe. -/
  | clientboundKeepAlive (id : Int32)
  /-- A client's answer to a probe, with its id. -/
  | serverboundKeepAlive (id : Int32)
  /-- Disconnect in play, with a chat text. -/
  | playDisconnect (reason : String)
  deriving DecidableEq, Repr, Inhabited

namespace CorePacket

def kind : CorePacket → CoreKind
  | handshake .. => .handshake
  | statusRequest => .statusRequest
  | statusResponse _ => .statusResponse
  | statusPing _ => .statusPing
  | statusPong _ => .statusPong
  | loginStart _ => .loginStart
  | loginDisconnect _ => .loginDisconnect
  | encryptionRequest .. => .encryptionRequest
  | encryptionResponse .. => .encryptionResponse
  | loginSuccess .. => .loginSuccess
  | setCompression _ => .setCompression
  | clientboundKeepAlive _ => .clientboundKeepAlive
  | serverboundKeepAlive _ => .serverboundKeepAlive
  | playDisconnect _ => .playDisconnect

def intendedPhase? : CorePacket → Option Phase
  | handshake _ _ _ intent => Phase.ofIntent? intent
  | _ => none

def write : CorePacket → Bytes
  | handshake protocolVersion serverAddress serverPort intent =>
    Field.varInt protocolVersion ++ Field.text serverAddress ++ Field.word16 serverPort
      ++ Field.varInt intent
  | statusRequest => []
  | statusResponse json => Field.text json
  | statusPing payload => Field.int64 payload
  | statusPong payload => Field.int64 payload
  | loginStart username => Field.text username
  | loginDisconnect reason => Field.text reason
  | encryptionRequest serverId publicKey verifyToken =>
    Field.text serverId ++ Field.array publicKey ++ Field.array verifyToken
  | encryptionResponse sharedSecret verifyToken =>
    Field.array sharedSecret ++ Field.array verifyToken
  | loginSuccess uuid username => Field.text uuid ++ Field.text username
  | setCompression threshold => Field.varInt threshold
  | clientboundKeepAlive id => Field.varInt id
  | serverboundKeepAlive id => Field.varInt id
  | playDisconnect reason => Field.text reason

/-- Reads the fields of a packet of the given type. -/
def read : CoreKind → Reader CorePacket
  | .handshake => do
    let protocolVersion ← Reader.varInt
    let serverAddress ← Reader.text Limit.host
    let serverPort ← Reader.word16
    let intent ← Reader.varInt
    return .handshake protocolVersion serverAddress serverPort intent
  | .statusRequest => return .statusRequest
  | .statusResponse => return .statusResponse (← Reader.text Limit.text)
  | .statusPing => return .statusPing (← Reader.int64)
  | .statusPong => return .statusPong (← Reader.int64)
  | .loginStart => return .loginStart (← Reader.text Limit.username)
  | .loginDisconnect => return .loginDisconnect (← Reader.text Limit.text)
  | .encryptionRequest => do
    let serverId ← Reader.text Limit.serverId
    let publicKey ← Reader.array Limit.key
    let verifyToken ← Reader.array Limit.token
    return .encryptionRequest serverId publicKey verifyToken
  | .encryptionResponse => do
    let sharedSecret ← Reader.array Limit.token
    let verifyToken ← Reader.array Limit.token
    return .encryptionResponse sharedSecret verifyToken
  | .loginSuccess => do
    let uuid ← Reader.text Limit.uuidText
    let username ← Reader.text Limit.username
    return .loginSuccess uuid username
  | .setCompression => return .setCompression (← Reader.varInt)
  | .clientboundKeepAlive => return .clientboundKeepAlive (← Reader.varInt)
  | .serverboundKeepAlive => return .serverboundKeepAlive (← Reader.varInt)
  | .playDisconnect => return .playDisconnect (← Reader.text Limit.text)

end CorePacket
end PhaseWire
