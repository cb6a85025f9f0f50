import PhaseWire.Config.Basic
import PhaseWire.Toml.Document
import PhaseWire.Toml.Writer

/-
# Settings in files

Settings are kept as a TOML document with a section for each group.  A
section may be left out, but one that is there must be complete.  Keys
that nobody knows are ignored.  TOML integers have 64 bits with a sign, so
settings beyond them are refused when a document is written.
-/

namespace PhaseWire

open Toml

/-- What becomes of replacing what a file holds. -/
inductive FileWrite
  | done
  /-- The reason why it fails, and what the file holds then. -/
  | failed (reason : String) (left? : Option Bytes)
  deriving DecidableEq, Repr

/-! ## Reading -/

/-- The values of a section by the names of its keys: a table, or an array in the order of keys. -/
def sectionValues (keys : List String) : Value → Option Entries
  | .table _ entries => some entries
  | .array items => some (keys.zip items)
  | .tables items => some (keys.zip (items.map (Value.table .header)))
  | _ => none

def textAt? (entries : Entries) (key : String) : Option String :=
  match entries.get? key with
  | some (.text value) => some value
  | _ => none

def booleanAt? (entries : Entries) (key : String) : Option Bool :=
  match entries.get? key with
  | some (.boolean value) => some value
  | _ => none

/-- An integer between two bounds under a key. -/
def integerAt? (low high : Int) (entries : Entries) (key : String) : Option Int :=
  match entries.get? key with
  | some (.integer value) => if low ≤ value ∧ value ≤ high then some value else none
  | _ => none

/-- A number from zero up under a key. -/
def naturalAt? (entries : Entries) (key : String) : Option Nat :=
  (integerAt? 0 (UInt64.size - 1 : Nat) entries key).map Int.toNat

/-- A number of 32 bits with a sign under a key. -/
def int32At? (entries : Entries) (key : String) : Option Int32 :=
  (integerAt? Int32.minValue.toInt Int32.maxValue.toInt entries key).map Int32.ofInt

/-- Whether a value holds nothing. -/
def isHollow : Value → Bool
  | .array items => items.isEmpty
  | .table _ entries => entries.isEmpty
  | .tables items => items.isEmpty
  | _ => false

/-- A method under a key: its name, or a table with the name as only key and nothing in it. -/
def methodAt? (entries : Entries) (key : String) : Option Method :=
  match entries.get? key with
  | some (.text value) => Method.ofName? value
  | some (.table _ [(name, value)]) => if isHollow value then Method.ofName? name else none
  | _ => none

namespace Config

def serverKeys : List String :=
  ["address", "max_connections", "keepalive_interval", "keepalive_timeout", "shutdown_timeout"]

/-- The keys of pipeline settings. -/
def transportKeys : List String :=
  ["compression_threshold", "compression_kind", "compression_level", "max_frame_size",
    "max_uncompressed_size"]

def loggingKeys : List String :=
  ["app_name", "log_level", "json_format"]

def readServer (value : Value) : Option ServerConfig := do
  let entries ← sectionValues serverKeys value
  return {
    address := ← textAt? entries "address"
    maxConnections := ← naturalAt? entries "max_connections"
    keepaliveInterval := ← naturalAt? entries "keepalive_interval"
    keepaliveTimeout := ← naturalAt? entries "keepalive_timeout"
    shutdownTimeout := ← naturalAt? entries "shutdown_timeout" }

/-- The pipeline settings in a section. -/
def readTransport (value : Value) : Option TransportConfig := do
  let entries ← sectionValues transportKeys value
  return {
    threshold := ← int32At? entries "compression_threshold"
    method := ← methodAt? entries "compression_kind"
    level := ← int32At? entries "compression_level"
    maxFrame := ← naturalAt? entries "max_frame_size"
    maxUncompressed := ← naturalAt? entries "max_uncompressed_size" }

/-- The log settings in a section. -/
def readLogging (value : Value) : Option LoggingConfig := do
  let entries ← sectionValues loggingKeys value
  return {
    appName := ← textAt? entries "app_name"
    logLevel := ← (← textAt? entries "log_level") |> LogLevel.ofText?
    json := ← booleanAt? entries "json_format" }

/-- The settings in a section, or those for a section that is not there. -/
def readSection {α : Type} (entries : Entries) (key : String) (missing : α)
    (read : Value → Option α) : Option α :=
  match entries.get? key with
  | none => some missing
  | some value => read value

/-- The settings in a document. -/
def ofEntries? (entries : Entries) : Option Config := do
  return {
    server := ← readSection entries "server" defaultServer readServer
    transport := ← readSection entries "transport" defaultTransport readTransport
    logging := ← readSection entries "logging" defaultLogging readLogging }

/-- Why a document gives no settings. -/
def parseFault (reason : String) : Fault :=
  .setup ("Failed to parse TOML: " ++ reason)

/-- The settings that a document writes. -/
def ofToml (text : String) : Except Fault Config :=
  match Toml.parse? text with
  | none => .error (parseFault "malformed document")
  | some entries =>
    match ofEntries? entries with
    | none => .error (parseFault "missing or unsuitable value")
    | some config => .ok config

/-- The settings in a file, which is its bytes if it exists. -/
def ofFile (content? : Option Bytes) : Except Fault Config :=
  match content? with
  | none =>
    .error (.setup "Failed to open config file: No such file or directory (os error 2)")
  | some content =>
    match Bytes.toText? content with
    | none => .error (.setup "Failed to read config file: stream did not contain valid UTF-8")
    | some text => ofToml text

/-! ## Writing -/

/-- A number from zero up, if it is a TOML integer. -/
def writeNatural (value : Nat) : Except Fault Scalar :=
  if value ≤ maxInteger then .ok (.integer value)
  else .error (.setup "Failed to serialize config: out-of-range value for u64 type")

/-- A duration, of which 64 bits are kept. -/
def writeDuration (milliseconds : Nat) : Except Fault Scalar :=
  writeNatural (milliseconds % UInt64.size)

def writeServer (config : ServerConfig) : Except Fault Section := do
  let maxConnections ← writeNatural config.maxConnections
  let keepaliveInterval ← writeDuration config.keepaliveInterval
  let keepaliveTimeout ← writeDuration config.keepaliveTimeout
  let shutdownTimeout ← writeDuration config.shutdownTimeout
  return ⟨"server", serverKeys.zip
    [.text config.address, maxConnections, keepaliveInterval, keepaliveTimeout, shutdownTimeout]⟩

/-- The section of pipeline settings. -/
def writeTransport (config : TransportConfig) : Except Fault Section := do
  let maxFrame ← writeNatural config.maxFrame
  let maxUncompressed ← writeNatural config.maxUncompressed
  return ⟨"transport", transportKeys.zip
    [.integer config.threshold.toInt, .text config.method.name, .integer config.level.toInt,
      maxFrame, maxUncompressed]⟩

def writeLogging (config : LoggingConfig) : Section :=
  ⟨"logging", loggingKeys.zip
    [.text config.appName, .text config.logLevel.name, .boolean config.json]⟩

def toSections (config : Config) : Except Fault (List Section) := do
  return [← writeServer config.server, ← writeTransport config.transport,
    writeLogging config.logging]

/-- The document of the settings. -/
def toToml (config : Config) : Except Fault String :=
  config.toSections.map Toml.render

/-- Writes the settings to a file, which is its bytes if it exists, and gives what the file holds
afterwards.  The document is complete before the file is touched. -/
def save (config : Config) (write : FileWrite) (file? : Option Bytes) :
    Except Fault Unit × Option Bytes :=
  match config.toToml with
  | .error fault => (.error fault, file?)
  | .ok text =>
    match write with
    | .done => (.ok (), some (Bytes.ofText text))
    | .failed reason left? => (.error (.setup ("Failed to write config file: " ++ reason)), left?)

/-- A document of the settings where nothing else is said. -/
def exampleDocument : String :=
  match standard.toToml with
  | .ok text => text
  | .error _ => "# Failed to generate example config"

end Config
end PhaseWire
