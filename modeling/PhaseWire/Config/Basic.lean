import PhaseWire.Compression.Stage
import PhaseWire.Registry
import PhaseWire.Text.Number

/-
# `Config` — the settings of a server or client

Durations are in milliseconds.  A negative compression threshold switches
compression off.
-/

namespace PhaseWire

/-! ## Times -/

namespace Time

/-- How long a connection attempt may take. -/
def connect : Nat := 5000

/-- How often a session in play probes its peer. -/
def keepaliveInterval : Nat := 15000

/-- The silence after which a session is closed. -/
def keepaliveTimeout : Nat := 30000

/-- How long open sessions may take when a server shuts down. -/
def shutdown : Nat := 10000

end Time

/-- Bodies of at least this size are compressed once compression is on. -/
def Limit.threshold : Int32 := 256

/-! ## Settings -/

inductive LogLevel
  | error
  | warn
  | info
  | debug
  | trace
  deriving DecidableEq, Repr, Inhabited

namespace LogLevel

/-- Every level, from the fewest messages to the most. -/
def all : List LogLevel := [.error, .warn, .info, .debug, .trace]

/-- The level in data formats. -/
def name : LogLevel → String
  | error => "error"
  | warn => "warn"
  | info => "info"
  | debug => "debug"
  | trace => "trace"

def title : LogLevel → String
  | error => "ERROR"
  | warn => "WARN"
  | info => "INFO"
  | debug => "DEBUG"
  | trace => "TRACE"

/-- The level that a text names, in any case, or by its number from one. -/
def ofText? (text : String) : Option LogLevel :=
  match Text.unsigned? (UInt64.size - 1) text with
  | some 0 => none
  | some number => all[number - 1]?
  | none => all.find? fun level => level.name == text.map Char.toLower

end LogLevel

/-- Settings of a server's listener and sessions. -/
structure ServerConfig where
  address : String
  maxConnections : Nat
  keepaliveInterval : Nat
  keepaliveTimeout : Nat
  shutdownTimeout : Nat
  deriving DecidableEq, Repr

/-- Settings of the pipeline. -/
structure TransportConfig where
  threshold : Int32
  method : Method
  level : Int32
  maxFrame : Nat
  maxUncompressed : Nat
  deriving DecidableEq, Repr

structure LoggingConfig where
  appName : String
  logLevel : LogLevel
  json : Bool
  deriving DecidableEq, Repr

structure Config where
  server : ServerConfig
  transport : TransportConfig
  logging : LoggingConfig
  deriving DecidableEq, Repr

namespace Config

/-- The server settings where nothing else is said. -/
def defaultServer : ServerConfig :=
  ⟨"127.0.0.1:25565", 1000, Time.keepaliveInterval, Time.keepaliveTimeout, Time.shutdown⟩

/-- The pipeline settings where nothing else is said. -/
def defaultTransport : TransportConfig :=
  ⟨Limit.threshold, .zlib, 6, Limit.frame, Limit.uncompressed⟩

/-- The log settings where nothing else is said. -/
def defaultLogging : LoggingConfig :=
  ⟨"protocol-session", .info, false⟩

/-- The settings where nothing else is said. -/
def standard : Config :=
  ⟨defaultServer, defaultTransport, defaultLogging⟩

end Config
end PhaseWire
