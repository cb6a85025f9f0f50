import PhaseWire.Config.Basic
import PhaseWire.Instant

/-
# `SessionOptions` — what is fixed when a session gets its transport
-/

namespace PhaseWire

structure SessionOptions where
  /-- Which end of the connection the session is. -/
  side : Side
  /-- How often a session in play probes its peer or checks that it was heard of. -/
  keepaliveInterval : Span
  /-- The silence, or the stalled write, after which a session is closed. -/
  keepaliveTimeout : Span
  maxFrame : Nat
  /-- The threshold that the session announces; a negative one means no compression. -/
  threshold : Int32
  method : Method
  level : Int32
  maxUncompressed : Nat
  library : Library

namespace SessionOptions

def ofConfig (config : Config) (side : Side) : SessionOptions where
  side := side
  keepaliveInterval := .ofMillis config.server.keepaliveInterval
  keepaliveTimeout := .ofMillis config.server.keepaliveTimeout
  maxFrame := config.transport.maxFrame
  threshold := config.transport.threshold
  method := config.transport.method
  level := config.transport.level
  maxUncompressed := config.transport.maxUncompressed
  library := .standard

/-- The settings of one side where nothing else is said. -/
def standard (side : Side) : SessionOptions :=
  ofConfig .standard side

/-- The threshold that the session announces, unless it does not compress. -/
def threshold? (options : SessionOptions) : Option Int32 :=
  if options.threshold < 0 then none else some options.threshold

/-- How long a closed session may take to write its last bytes, and again to shut down. -/
def closingLimit (options : SessionOptions) : Span :=
  min (.ofMillis Time.connect) options.keepaliveTimeout

end SessionOptions
end PhaseWire
