import PhaseWire.Config.Address
import PhaseWire.Config.Basic

/-
# Checking settings

Every setting that cannot work, or that is most likely a mistake, gives
one complaint.  The complaints come in the order of the settings.
-/

namespace PhaseWire

def complain (wrong : Bool) (text : String) : List String :=
  if wrong then [text] else []

def complainFirst (cases : List (Bool × String)) : List String :=
  match cases.find? (·.1) with
  | some (_, text) => [text]
  | none => []

/-- The complaints about server settings. -/
def ServerConfig.complaints (config : ServerConfig) : List String :=
  complainFirst
    [ (config.address.isEmpty, "Server address cannot be empty"),
      ((SocketAddress.parse? config.address).isNone,
        s!"Invalid server address format: '{config.address}' (expected format: '0.0.0.0:25565')") ]
  ++ complainFirst
    [ (config.maxConnections = 0, "Max connections must be greater than 0"),
      (100000 < config.maxConnections,
        s!"Max connections very high: {config.maxConnections} (ensure system resources can support this)") ]
  ++ complainFirst
    [ (config.keepaliveInterval < 100, "Keepalive interval too short (minimum: 100ms)"),
      (3600 < config.keepaliveInterval / 1000, "Keepalive interval too long (maximum: 1 hour)") ]
  ++ complain (config.keepaliveTimeout ≤ config.keepaliveInterval)
    "Keepalive timeout must be longer than the keepalive interval"
  ++ complainFirst
    [ (config.shutdownTimeout / 1000 < 1, "Shutdown timeout too short (minimum: 1s)"),
      (60 < config.shutdownTimeout / 1000, "Shutdown timeout too long (maximum: 60s)") ]

def TransportConfig.compressionComplaints (config : TransportConfig) : List String :=
  let (low, high) := config.method.levels
  complain (config.level < low || high < config.level)
    s!"Invalid compression level: {config.level.toInt} (valid range for {config.method.name}: {low.toInt}-{high.toInt})"
  ++ complain (config.maxFrame < config.threshold.toInt.toNat)
    "Compression threshold cannot be larger than max frame size"

/-- The complaints about pipeline settings. -/
def TransportConfig.complaints (config : TransportConfig) : List String :=
  complainFirst
    [ (config.maxFrame = 0, "Max frame size cannot be 0"),
      (Limit.frame < config.maxFrame,
        s!"Max frame size too large: {config.maxFrame} bytes (maximum: {Limit.frame})") ]
  ++ complain (config.maxUncompressed < config.maxFrame)
    "Max uncompressed size cannot be smaller than max frame size"
  ++ (if 0 ≤ config.threshold then config.compressionComplaints else [])

/-- The complaints about log settings. -/
def LoggingConfig.complaints (config : LoggingConfig) : List String :=
  complainFirst
    [ (config.appName.isEmpty, "Application name cannot be empty"),
      (64 < config.appName.utf8ByteSize,
        s!"Application name too long: {config.appName.utf8ByteSize} characters (maximum: 64)") ]

namespace Config

/-- The complaints about all settings. -/
def complaints (config : Config) : List String :=
  config.server.complaints ++ config.transport.complaints ++ config.logging.complaints

def check (config : Config) : Except Fault Unit :=
  let complaints := config.complaints
  if complaints.isEmpty then .ok ()
  else
    .error (.setup
      ("Configuration validation failed:\n  - " ++ String.intercalate "\n  - " complaints))

end Config
end PhaseWire
