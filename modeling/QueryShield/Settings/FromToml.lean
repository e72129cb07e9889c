import QueryShield.Settings.Basic
import QueryShield.Toml.Decode

/-!
# Settings from TOML

The same sections and fields as in YAML, read from a TOML document.  The rules the types do
not express are checked apart, so that a failure to read and a broken rule are told apart.
-/

namespace QueryShield
namespace Settings

open Toml

/-- The lifetimes section. -/
def lifetimesEntries : List (String × (Value → Span → Lifetimes → Except Fault Lifetimes)) := [
  ("version", fun v s l => do pure { l with version := ← signed64 v s }),
  ("schema", fun v s l => do pure { l with schema := ← signed64 v s }),
  ("data", fun v s l => do pure { l with data := ← signed64 v s }),
  ("count", fun v s l => do pure { l with count := ← signed64 v s })]

/-- The database section. -/
def databaseEntries :
    List (String × (Value → Span → DatabaseSettings → Except Fault DatabaseSettings)) := [
  ("url_env", fun v s d => do pure { d with urlEnv := some (← text v s) }),
  ("url", fun v s d => do pure { d with url := some (← text v s) }),
  ("host", fun v s d => do pure { d with host := ← text v s }),
  ("port", fun v s d => do pure { d with port := ← unsigned 16 v s }),
  ("name", fun v s d => do pure { d with name := ← text v s }),
  ("username", fun v s d => do pure { d with username := ← text v s }),
  ("password", fun v s d => do pure { d with password := some (← text v s) }),
  ("password_env", fun v s d => do pure { d with passwordEnv := some (← text v s) }),
  ("max_connections", fun v s d => do pure { d with maxConnections := ← unsigned 32 v s }),
  ("connect_timeout_secs", fun v s d => do pure { d with connectTimeoutSecs := ← unsigned 64 v s })]

/-- The cache section. -/
def cacheEntries : List (String × (Value → Span → CacheSettings → Except Fault CacheSettings)) := [
  ("enabled", fun v s c => do pure { c with enabled := ← bool v s }),
  ("backend", fun v s c => do
    let b ← variant StoreBackend.names v s
    pure { c with backend := (StoreBackend.ofName? b).getD .redis }),
  ("url", fun v s c => do pure { c with url := some (← text v s) }),
  ("host", fun v s c => do pure { c with host := ← text v s }),
  ("port", fun v s c => do pure { c with port := ← unsigned 16 v s }),
  ("socket_path", fun v s c => do pure { c with socketPath := some (← text v s) }),
  ("password", fun v s c => do pure { c with password := some (← text v s) }),
  ("password_env", fun v s c => do pure { c with passwordEnv := some (← text v s) }),
  ("db", fun v s c => do pure { c with db := ← signed64 v s }),
  ("namespace", fun v s c => do pure { c with nameSpace := ← text v s }),
  ("store_label", fun v s c => do pure { c with storeLabel := some (← text v s) }),
  ("strict_decode", fun v s c => do pure { c with strictDecode := ← bool v s }),
  ("ttl", fun v s c => do pure { c with lifetimes := ← record "TtlPolicy" {} lifetimesEntries v s })]

/-- The top level. -/
def topEntries : List (String × (Value → Span → Settings → Except Fault Settings)) := [
  ("project", fun v s st => do pure { st with project := some (← text v s) }),
  ("database", fun v s st => do
    pure { st with database := ← record "DatabaseConfig" {} databaseEntries v s }),
  ("cache", fun v s st => do pure { st with cache := ← record "CacheConfig" {} cacheEntries v s }),
  ("logging", fun v s st => do
    let level ← record "LoggingConfig" st.logLevel [("level", fun v s _ => text v s)] v s
    pure { st with logLevel := level })]

/-- Reads settings from TOML text, without checking the rules; a failure is shown for the
text. -/
def fromToml (source : String) : Except String Settings :=
  let read : Except Fault Settings := do
    let root ← Toml.parse source
    record "SqlwardConfig" {} topEntries (.table root .header) ⟨0, source.utf8ByteSize⟩
  read.mapError (·.render source)

end Settings
end QueryShield
