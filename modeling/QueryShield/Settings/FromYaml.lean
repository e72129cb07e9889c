import QueryShield.Settings.Basic
import QueryShield.Yaml.Decode

/-!
# Settings from YAML

Each section of the settings is a mapping whose keys are the fields' names in snake case.
Unknown keys are skipped; a key given twice is an error; a section left empty keeps its
defaults.  Ports are 16-bit, the connection count 32-bit and the time-out 64-bit unsigned
integers; the store index and the lifetimes are signed 64-bit integers; the backend is
`redis` or `memory`.
-/

namespace QueryShield
namespace Settings

open Yaml Decoding

/-- The lifetimes section. -/
def lifetimesFields : List (String × (List String → Lifetimes → Decoding Lifetimes)) := [
  ("version", fun p l => do pure { l with version := ← signed64 p }),
  ("schema", fun p l => do pure { l with schema := ← signed64 p }),
  ("data", fun p l => do pure { l with data := ← signed64 p }),
  ("count", fun p l => do pure { l with count := ← signed64 p })]

/-- The database section. -/
def databaseFields : List (String × (List String → DatabaseSettings → Decoding DatabaseSettings)) := [
  ("url_env", fun p d => do pure { d with urlEnv := ← optionalText p }),
  ("url", fun p d => do pure { d with url := ← optionalText p }),
  ("host", fun p d => do pure { d with host := ← text p }),
  ("port", fun p d => do pure { d with port := ← unsigned 16 p }),
  ("name", fun p d => do pure { d with name := ← text p }),
  ("username", fun p d => do pure { d with username := ← text p }),
  ("password", fun p d => do pure { d with password := ← optionalText p }),
  ("password_env", fun p d => do pure { d with passwordEnv := ← optionalText p }),
  ("max_connections", fun p d => do pure { d with maxConnections := ← unsigned 32 p }),
  ("connect_timeout_secs", fun p d => do pure { d with connectTimeoutSecs := ← unsigned 64 p })]

/-- The cache section. -/
def cacheFields : List (String × (List String → CacheSettings → Decoding CacheSettings)) := [
  ("enabled", fun p c => do pure { c with enabled := ← bool p }),
  ("backend", fun p c => do
    let b ← variant "CacheBackend" StoreBackend.names p
    pure { c with backend := (StoreBackend.ofName? b).getD .redis }),
  ("url", fun p c => do pure { c with url := ← optionalText p }),
  ("host", fun p c => do pure { c with host := ← text p }),
  ("port", fun p c => do pure { c with port := ← unsigned 16 p }),
  ("socket_path", fun p c => do pure { c with socketPath := ← optionalText p }),
  ("password", fun p c => do pure { c with password := ← optionalText p }),
  ("password_env", fun p c => do pure { c with passwordEnv := ← optionalText p }),
  ("db", fun p c => do pure { c with db := ← signed64 p }),
  ("namespace", fun p c => do pure { c with nameSpace := ← text p }),
  ("store_label", fun p c => do pure { c with storeLabel := ← optionalText p }),
  ("strict_decode", fun p c => do pure { c with strictDecode := ← bool p }),
  ("ttl", fun p c => do pure { c with lifetimes := ← record "TtlPolicy" {} lifetimesFields p })]

/-- The top level. -/
def topFields : List (String × (List String → Settings → Decoding Settings)) := [
  ("project", fun p s => do pure { s with project := ← optionalText p }),
  ("database", fun p s => do pure { s with database := ← record "DatabaseConfig" {} databaseFields p }),
  ("cache", fun p s => do pure { s with cache := ← record "CacheConfig" {} cacheFields p }),
  ("logging", fun p s => do
    let level ← record "LoggingConfig" s.logLevel [("level", fun p _ => text p)] p
    pure { s with logLevel := level })]

/-- Reads settings from YAML text and checks them. -/
def fromYaml (yaml : String) : Except SettingsError Settings := do
  let s ← (decodeText yaml (record "SqlwardConfig" {} topFields [])).mapError fun f => .yaml f.message
  s.validate
  pure s

end Settings
end QueryShield
