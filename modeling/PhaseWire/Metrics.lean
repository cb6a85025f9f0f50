/-
# `Metrics` — counters of what happened

Every counter has 64 bits and wraps, except that the number of active
connections does not fall below zero.
-/

namespace PhaseWire

/-- Counters of connections, packets and failures. -/
structure Metrics where
  connectionsTotal : UInt64 := 0
  connectionsActive : UInt64 := 0
  connectionsRejected : UInt64 := 0
  packetsSent : UInt64 := 0
  packetsReceived : UInt64 := 0
  bytesSent : UInt64 := 0
  bytesReceived : UInt64 := 0
  framesCompressed : UInt64 := 0
  encryptionEnabled : UInt64 := 0
  protocolErrors : UInt64 := 0
  connectionErrors : UInt64 := 0
  keepaliveTimeouts : UInt64 := 0
  deriving DecidableEq, Repr, Inhabited

namespace Metrics

def counters (m : Metrics) : List (String × UInt64) :=
  [("connections_total", m.connectionsTotal), ("connections_active", m.connectionsActive),
    ("connections_rejected", m.connectionsRejected), ("packets_sent", m.packetsSent),
    ("packets_received", m.packetsReceived), ("bytes_sent", m.bytesSent),
    ("bytes_received", m.bytesReceived), ("frames_compressed", m.framesCompressed),
    ("encryption_enabled", m.encryptionEnabled), ("protocol_errors", m.protocolErrors),
    ("connection_errors", m.connectionErrors), ("keepalive_timeouts", m.keepaliveTimeouts)]

def established (m : Metrics) : Metrics :=
  { m with
    connectionsTotal := m.connectionsTotal + 1
    connectionsActive := m.connectionsActive + 1 }

def ended (m : Metrics) : Metrics :=
  { m with
    connectionsActive := if m.connectionsActive = 0 then 0 else m.connectionsActive - 1 }

def rejected (m : Metrics) : Metrics :=
  { m with connectionsRejected := m.connectionsRejected + 1 }

def sent (m : Metrics) (bytes : UInt64) : Metrics :=
  { m with packetsSent := m.packetsSent + 1, bytesSent := m.bytesSent + bytes }

def received (m : Metrics) (bytes : UInt64) : Metrics :=
  { m with packetsReceived := m.packetsReceived + 1, bytesReceived := m.bytesReceived + bytes }

def compressed (m : Metrics) : Metrics :=
  { m with framesCompressed := m.framesCompressed + 1 }

def encrypted (m : Metrics) : Metrics :=
  { m with encryptionEnabled := m.encryptionEnabled + 1 }

def protocolError (m : Metrics) : Metrics :=
  { m with protocolErrors := m.protocolErrors + 1 }

def connectionError (m : Metrics) : Metrics :=
  { m with connectionErrors := m.connectionErrors + 1 }

def keepaliveTimeout (m : Metrics) : Metrics :=
  { m with keepaliveTimeouts := m.keepaliveTimeouts + 1 }

end Metrics
end PhaseWire
