import PhaseWire.Config.Basic

/-
# Settings from environment variables

A variable that is set replaces one default.  A number that cannot be read
leaves the default in place.
-/

namespace PhaseWire.Config

/-- The variables that are set, with their values. -/
abbrev Environment := List (String × String)

def variablePrefix : String := "PROTOCOL_SESSION_"

def valueOf? (environment : Environment) (name : String) : Option String :=
  environment.lookup (variablePrefix ++ name)

/-- A number of 64 bits without a sign in a variable. -/
def naturalOf? (environment : Environment) (name : String) : Option Nat :=
  (valueOf? environment name).bind (Text.unsigned? (UInt64.size - 1))

def ofEnvironment (environment : Environment) : Config :=
  let threshold? :=
    (valueOf? environment "COMPRESSION_THRESHOLD").bind (Text.signed? Int32.maxValue.toInt.toNat)
  let natural := fun name missing => (naturalOf? environment name).getD missing
  { standard with
    server :=
      { defaultServer with
        address := (valueOf? environment "SERVER_ADDRESS").getD defaultServer.address
        maxConnections := natural "MAX_CONNECTIONS" defaultServer.maxConnections
        keepaliveInterval := natural "KEEPALIVE_INTERVAL_MS" defaultServer.keepaliveInterval
        keepaliveTimeout := natural "KEEPALIVE_TIMEOUT_MS" defaultServer.keepaliveTimeout }
    transport :=
      { defaultTransport with
        threshold := (threshold?.map Int32.ofInt).getD defaultTransport.threshold } }

end PhaseWire.Config
