import Mathlib.Logic.Basic
import PhaseWire.Config.Check
import PhaseWire.Config.File
import PhaseWire.Proofs.Bytes
import PhaseWire.Proofs.Toml.Document

/-
# Settings are loaded as they were saved, or not saved

Saving writes a document of three sections, and loading reads it.  The two
agree on every text, level, method and number that a document can hold
(`ofFile_render`): this is the round trip of documents, once what is
written under a key is found under it again.  Numbers beyond 64 bits with
a sign are refused, before the file is touched.

Durations are the exception.  They are cut to their low 64 bits first, so
a duration of `2 ^ 64` milliseconds or more is not refused for its length
but saved as another one (`Config.stored`).  Saving and loading is the
identity exactly on the settings whose durations are shorter, and of the
settings that pass their check only the time limit of a silent peer can be
longer (`load_saved`).
-/

namespace PhaseWire

open Toml

/-! ## Values under their keys -/

section Entries

variable {entries : Entries} {key : String}

theorem textAt?_of_get? {value : String} (h : entries.get? key = some (.text value)) :
    textAt? entries key = some value := by
  simp [textAt?, h]

theorem booleanAt?_of_get? {value : Bool} (h : entries.get? key = some (.boolean value)) :
    booleanAt? entries key = some value := by
  simp [booleanAt?, h]

theorem naturalAt?_of_get? {value : Nat} (h : entries.get? key = some (.integer value))
    (hvalue : value ≤ maxInteger) : naturalAt? entries key = some value := by
  have hmax : value ≤ UInt64.size - 1 := Nat.le_trans hvalue (by decide)
  have hbounds : (0 : Int) ≤ value ∧ (value : Int) ≤ (UInt64.size - 1 : Nat) := by omega
  simp only [naturalAt?, integerAt?, h, if_pos hbounds, Option.map_some, Int.toNat_natCast]

theorem int32At?_of_get? {value : Int32} (h : entries.get? key = some (.integer value.toInt)) :
    int32At? entries key = some value := by
  have hbounds : Int32.minValue.toInt ≤ value.toInt ∧ value.toInt ≤ Int32.maxValue.toInt :=
    ⟨value.minValue_le_toInt, value.toInt_le⟩
  simp only [int32At?, integerAt?, h, if_pos hbounds, Option.map_some, Int32.ofInt_toInt]

theorem Method.ofName?_name (method : Method) : ofName? method.name = some method := by
  cases method <;> decide

theorem methodAt?_of_get? {method : Method} (h : entries.get? key = some (.text method.name)) :
    methodAt? entries key = some method := by
  simp [methodAt?, h, Method.ofName?_name]

end Entries

theorem LogLevel.ofText?_name (level : LogLevel) : ofText? level.name = some level := by
  have hnumber : Text.unsigned? (UInt64.size - 1) level.name = none := by
    cases level <;> decide
  have hlower : level.name.map Char.toLower = level.name := by
    rw [← String.toList_inj, String.toList_map]
    cases level <;> decide
  rw [ofText?, hnumber, hlower]
  cases level <;> decide

namespace Config

/-! ## What is kept -/

/-- The settings as they are saved: of a duration the low 64 bits. -/
def stored (config : Config) : Config :=
  { config with
    server :=
      { config.server with
        keepaliveInterval := config.server.keepaliveInterval % UInt64.size
        keepaliveTimeout := config.server.keepaliveTimeout % UInt64.size
        shutdownTimeout := config.server.shutdownTimeout % UInt64.size } }

def durations (config : Config) : List Nat :=
  [config.server.keepaliveInterval, config.server.keepaliveTimeout, config.server.shutdownTimeout]

/-- Settings are kept whose durations have 64 bits. -/
theorem stored_eq_iff (config : Config) :
    config.stored = config ↔ ∀ duration ∈ config.durations, duration < UInt64.size := by
  have hsize : 0 < UInt64.size := by decide
  have hcut : ∀ duration, duration % UInt64.size = duration ↔ duration < UInt64.size := by
    intro duration
    exact ⟨fun h => h ▸ Nat.mod_lt duration hsize, Nat.mod_eq_of_lt⟩
  obtain ⟨⟨address, maxConnections, interval, timeout, shutdown⟩, transport, logging⟩ := config
  simp [stored, durations, hcut]

/-! ## Writing -/

/-- The numbers from zero up among settings. -/
def numbers (config : Config) : List Nat :=
  [config.server.maxConnections] ++ config.durations
    ++ [config.transport.maxFrame, config.transport.maxUncompressed]

theorem forall_numbers_iff {config : Config} {p : Nat → Prop} :
    (∀ number ∈ config.numbers, p number) ↔
      (p config.server.maxConnections ∧ p config.server.keepaliveInterval
        ∧ p config.server.keepaliveTimeout ∧ p config.server.shutdownTimeout)
      ∧ p config.transport.maxFrame ∧ p config.transport.maxUncompressed := by
  simp [numbers, durations, and_assoc]

/-- Whether all that is saved of the numbers is integers of a document. -/
def IsWritable (config : Config) : Prop :=
  ∀ number ∈ config.stored.numbers, number ≤ maxInteger

instance (config : Config) : Decidable config.IsWritable :=
  inferInstanceAs (Decidable (∀ number ∈ config.stored.numbers, number ≤ maxInteger))

/-- Why settings are not written. -/
def outOfRange : Fault :=
  .setup "Failed to serialize config: out-of-range value for u64 type"

/-- The section of server settings that can be written. -/
def serverSection (config : ServerConfig) : Section :=
  ⟨"server", serverKeys.zip
    [.text config.address, .integer config.maxConnections, .integer config.keepaliveInterval,
      .integer config.keepaliveTimeout, .integer config.shutdownTimeout]⟩

/-- The section of pipeline settings that can be written. -/
def transportSection (config : TransportConfig) : Section :=
  ⟨"transport", transportKeys.zip
    [.integer config.threshold.toInt, .text config.method.name, .integer config.level.toInt,
      .integer config.maxFrame, .integer config.maxUncompressed]⟩

def sections (config : Config) : List Section :=
  [serverSection config.server, transportSection config.transport, writeLogging config.logging]

theorem writeNatural_bind {α : Type} (value : Nat) (next : Scalar → Except Fault α) :
    (writeNatural value >>= next)
      = if value ≤ maxInteger then next (.integer value) else .error outOfRange := by
  rw [writeNatural]
  split <;> rfl

theorem ite_bind {α β : Type} (p : Prop) [Decidable p] (value : Except Fault α) (fault : Fault)
    (next : α → Except Fault β) :
    ((if p then value else .error fault) >>= next)
      = if p then value >>= next else .error fault := by
  split <;> rfl

theorem toSections_eq (config : Config) :
    config.toSections
      = if config.IsWritable then .ok config.stored.sections else .error outOfRange := by
  -- one condition after another on the left, all of them at once on the right
  simp only [toSections, writeServer, writeTransport, writeDuration, writeNatural_bind, ite_bind,
    pure_bind, IsWritable, forall_numbers_iff, and_assoc, ite_and]
  rfl

/-! ## Reading -/

theorem isPlain_sections {config : Config}
    (h : ∀ number ∈ config.numbers, number ≤ maxInteger) :
    ∀ block ∈ config.sections, block.IsPlain := by
  obtain ⟨⟨hconnections, hinterval, htimeout, hshutdown⟩, hframe, huncompressed⟩ :=
    forall_numbers_iff.mp h
  have hserver : (serverSection config.server).IsPlain := by
    refine Section.isPlain_zip (by decide) (by decide) (by decide) (Nat.le_refl _) ?_
    simp only [List.forall_mem_cons, Scalar.isReadable_natCast, *]
    exact ⟨trivial, by simp⟩
  have htransport : (transportSection config.transport).IsPlain := by
    refine Section.isPlain_zip (by decide) (by decide) (by decide) (Nat.le_refl _) ?_
    simp only [List.forall_mem_cons, Scalar.isReadable_natCast, Scalar.isReadable_int32, *]
    exact ⟨trivial, trivial, by simp⟩
  have hlogging : (writeLogging config.logging).IsPlain := by
    refine Section.isPlain_zip (by decide) (by decide) (by decide) (Nat.le_refl _) ?_
    simp only [List.forall_mem_cons]
    exact ⟨trivial, trivial, trivial, by simp⟩
  simp [sections, hserver, htransport, hlogging]

theorem readServer_serverSection {config : ServerConfig}
    (hconnections : config.maxConnections ≤ maxInteger)
    (hinterval : config.keepaliveInterval ≤ maxInteger)
    (htimeout : config.keepaliveTimeout ≤ maxInteger)
    (hshutdown : config.shutdownTimeout ≤ maxInteger) :
    readServer (serverSection config).table.2 = some config := by
  have htable : sectionValues serverKeys (serverSection config).table.2
      = some (serverSection config).values := rfl
  have haddress : textAt? (serverSection config).values "address" = some config.address :=
    textAt?_of_get? rfl
  have hconnections : naturalAt? (serverSection config).values "max_connections"
      = some config.maxConnections := naturalAt?_of_get? rfl hconnections
  have hinterval : naturalAt? (serverSection config).values "keepalive_interval"
      = some config.keepaliveInterval := naturalAt?_of_get? rfl hinterval
  have htimeout : naturalAt? (serverSection config).values "keepalive_timeout"
      = some config.keepaliveTimeout := naturalAt?_of_get? rfl htimeout
  have hshutdown : naturalAt? (serverSection config).values "shutdown_timeout"
      = some config.shutdownTimeout := naturalAt?_of_get? rfl hshutdown
  simp [readServer, *]

theorem readTransport_transportSection {config : TransportConfig}
    (hframe : config.maxFrame ≤ maxInteger) (huncompressed : config.maxUncompressed ≤ maxInteger) :
    readTransport (transportSection config).table.2 = some config := by
  have htable : sectionValues transportKeys (transportSection config).table.2
      = some (transportSection config).values := rfl
  have hthreshold : int32At? (transportSection config).values "compression_threshold"
      = some config.threshold := int32At?_of_get? rfl
  have hmethod : methodAt? (transportSection config).values "compression_kind"
      = some config.method := methodAt?_of_get? rfl
  have hlevel : int32At? (transportSection config).values "compression_level"
      = some config.level := int32At?_of_get? rfl
  have hframe : naturalAt? (transportSection config).values "max_frame_size"
      = some config.maxFrame := naturalAt?_of_get? rfl hframe
  have huncompressed : naturalAt? (transportSection config).values "max_uncompressed_size"
      = some config.maxUncompressed := naturalAt?_of_get? rfl huncompressed
  simp [readTransport, *]

theorem readLogging_writeLogging (config : LoggingConfig) :
    readLogging (writeLogging config).table.2 = some config := by
  have htable : sectionValues loggingKeys (writeLogging config).table.2
      = some (writeLogging config).values := rfl
  have hname : textAt? (writeLogging config).values "app_name" = some config.appName :=
    textAt?_of_get? rfl
  have hlevel : textAt? (writeLogging config).values "log_level" = some config.logLevel.name :=
    textAt?_of_get? rfl
  have hjson : booleanAt? (writeLogging config).values "json_format" = some config.json :=
    booleanAt?_of_get? rfl
  simp [readLogging, LogLevel.ofText?_name, *]

theorem ofEntries?_sections {config : Config} (h : ∀ number ∈ config.numbers, number ≤ maxInteger) :
    ofEntries? (config.sections.map Section.table) = some config := by
  obtain ⟨⟨hconnections, hinterval, htimeout, hshutdown⟩, hframe, huncompressed⟩ :=
    forall_numbers_iff.mp h
  have hserver : readSection (config.sections.map Section.table) "server" defaultServer readServer
      = some config.server := readServer_serverSection hconnections hinterval htimeout hshutdown
  have htransport : readSection (config.sections.map Section.table) "transport" defaultTransport
      readTransport = some config.transport := readTransport_transportSection hframe huncompressed
  have hlogging : readSection (config.sections.map Section.table) "logging" defaultLogging
      readLogging = some config.logging := readLogging_writeLogging config.logging
  simp only [ofEntries?, hserver, htransport, hlogging, Option.bind_eq_bind, Option.bind_some]
  rfl

/-- The settings are loaded from the document of their sections. -/
theorem ofFile_render {config : Config} (h : ∀ number ∈ config.numbers, number ≤ maxInteger) :
    ofFile (some (Bytes.ofText (Toml.render config.sections))) = .ok config := by
  have htext : Bytes.toText? (Bytes.ofText (Toml.render config.sections))
      = some (Toml.render config.sections) := Bytes.toText?_eq_some_iff.mpr rfl
  have hnodup : (config.sections.map Section.name).Nodup :=
    show ["server", "transport", "logging"].Nodup by decide
  simp only [ofFile, htext, ofToml, parse?_render (isPlain_sections h) hnodup,
    ofEntries?_sections h]

/-! ## Saving and loading -/

theorem save_of_not_isWritable {config : Config} (h : ¬config.IsWritable) (write : FileWrite)
    (file? : Option Bytes) : config.save write file? = (.error outOfRange, file?) := by
  simp [save, toToml, toSections_eq, h, Except.map]

theorem save_of_isWritable {config : Config} (h : config.IsWritable) (write : FileWrite)
    (file? : Option Bytes) :
    config.save write file?
      = match write with
        | .done => (.ok (), some (Bytes.ofText (Toml.render config.stored.sections)))
        | .failed reason left? =>
          (.error (.setup ("Failed to write config file: " ++ reason)), left?) := by
  cases write <;> simp [save, toToml, toSections_eq, h, Except.map]

/-! ### Settings that pass their check -/

theorem complain_eq_nil {wrong : Bool} {text : String} :
    complain wrong text = [] ↔ wrong = false := by
  cases wrong <;> simp [complain]

theorem complainFirst_eq_nil {cases : List (Bool × String)} :
    complainFirst cases = [] ↔ ∀ complaint ∈ cases, complaint.1 = false := by
  rw [complainFirst]
  cases hfound : cases.find? (·.1) with
  | some complaint =>
      have hwrong := List.find?_some hfound
      have hmem := List.mem_of_find?_eq_some hfound
      exact ⟨fun h => absurd h (List.cons_ne_nil _ _), fun h => by simp [h _ hmem] at hwrong⟩
  | none => simpa using hfound

theorem serverComplaints_eq_nil {config : ServerConfig} :
    config.complaints = [] ↔
      (config.address ≠ "" ∧ (SocketAddress.parse? config.address).isSome)
      ∧ (config.maxConnections ≠ 0 ∧ config.maxConnections ≤ 100000)
      ∧ (100 ≤ config.keepaliveInterval ∧ config.keepaliveInterval / 1000 ≤ 3600)
      ∧ config.keepaliveInterval < config.keepaliveTimeout
      ∧ 1000 ≤ config.shutdownTimeout ∧ config.shutdownTimeout / 1000 ≤ 60 := by
  simp [ServerConfig.complaints, complain_eq_nil, complainFirst_eq_nil]

/-- Of settings that pass their check only the time limit of a silent peer may be cut. -/
theorem complaints_stored_eq_nil_iff {config : Config} (h : config.complaints = []) :
    config.stored.complaints = []
      ↔ config.server.keepaliveInterval < config.server.keepaliveTimeout % UInt64.size := by
  simp only [complaints, List.append_eq_nil_iff, serverComplaints_eq_nil] at h ⊢
  obtain ⟨⟨⟨haddress, hconnections, hinterval, -, hshutdown⟩, htransport⟩, hlogging⟩ := h
  have hsize : 4000000 < UInt64.size := by decide
  have hinterval' : config.server.keepaliveInterval % UInt64.size
      = config.server.keepaliveInterval := Nat.mod_eq_of_lt (by omega)
  have hshutdown' : config.server.shutdownTimeout % UInt64.size
      = config.server.shutdownTimeout := Nat.mod_eq_of_lt (by omega)
  simp [stored, hinterval', hshutdown', haddress, hconnections, hinterval, hshutdown, htransport,
    hlogging]

/-! ### Every outcome -/

/-- Saving fails with the file as it was, or while the file is written; else the file gives the
settings with the low 64 bits of their durations.  These are the settings if and only if all
durations are so short. -/
theorem load_saved (config : Config) (write : FileWrite) (file? : Option Bytes) :
    match config.save write file? with
    | (.error fault, left?) =>
      (¬config.IsWritable ∧ fault = outOfRange ∧ left? = file?)
        ∨ ∃ reason, config.IsWritable ∧ write = .failed reason left?
            ∧ fault = .setup ("Failed to write config file: " ++ reason)
    | (.ok (), saved?) =>
      config.IsWritable ∧ ofFile saved? = .ok config.stored
        ∧ (config.stored = config ↔ ∀ duration ∈ config.durations, duration < UInt64.size)
        ∧ (config.complaints = [] → (config.stored.complaints = []
            ↔ config.server.keepaliveInterval
              < config.server.keepaliveTimeout % UInt64.size)) := by
  by_cases h : config.IsWritable
  · rw [save_of_isWritable h]
    cases write with
    | done => exact ⟨h, ofFile_render h, config.stored_eq_iff, complaints_stored_eq_nil_iff⟩
    | failed reason left? => exact .inr ⟨reason, h, rfl, rfl⟩
  · rw [save_of_not_isWritable h]
    exact .inl ⟨h, rfl, rfl⟩

/-- The usual settings, but for a silence of more than half a billion years. -/
def patient : Config :=
  { standard with server := { defaultServer with keepaliveTimeout := UInt64.size } }

/-- Saved without an error, and loaded without any silence at all, which their check refuses. -/
theorem patience_lost :
    patient.complaints = []
      ∧ ∃ content loaded, patient.save .done none = (.ok (), some content)
        ∧ ofFile (some content) = .ok loaded ∧ loaded ≠ patient
        ∧ loaded.server.keepaliveTimeout = 0 ∧ loaded.complaints ≠ [] := by
  have hwritable : patient.IsWritable := by decide
  have hpasses : patient.complaints = [] := by decide
  refine ⟨hpasses, _, patient.stored, save_of_isWritable hwritable .done none,
    ofFile_render hwritable, ?_, rfl, ?_⟩
  · rw [Ne, stored_eq_iff]
    decide
  · rw [Ne, complaints_stored_eq_nil_iff hpasses]
    decide

end Config
end PhaseWire
