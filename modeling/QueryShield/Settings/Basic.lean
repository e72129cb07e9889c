import QueryShield.Cache.Category
import QueryShield.Text.Blank

/-!
# Settings

The settings of a deployment: where the database is, how the cache in front of it is
reached and named, and the log level.  Every field has a default, so an empty document is a
complete configuration.

Connection texts are derived from the fields.  A database is reached by the URL in a named
environment variable if that is set, else by an explicit URL, else by a URL built from host,
port, name and credentials (user name and password percent-encoded).  A password is taken
from a named environment variable if that is set, else from the settings.  Redacted forms
hide the password.  The environment is an explicit list of variables.

Three rules go beyond the types: a pool has at least one connection, the cache namespace is
not blank, and neither the namespace nor the store label holds `:` or `*` (both stand in
cache keys and key patterns).
-/

namespace QueryShield

/-- Environment variables, by name. -/
abbrev Environment := List (String × String)

/-- The value of an environment variable, if it is set. -/
def Environment.get? (env : Environment) (name : String) : Option String := env.lookup name

/-- Which store holds the cache. -/
inductive StoreBackend where
  | redis
  | memory
deriving DecidableEq, Repr

namespace StoreBackend

/-- The backend's name in settings. -/
def name : StoreBackend → String
  | .redis => "redis"
  | .memory => "memory"

/-- The backend names, in the order messages list them. -/
def names : List String := ["redis", "memory"]

/-- The backend of a name. -/
def ofName? : String → Option StoreBackend
  | "redis" => some .redis
  | "memory" => some .memory
  | _ => none

end StoreBackend

/-- Percent-encoding of a URL component: ASCII letters, digits and `-._~` stay, every other
byte of the UTF-8 text becomes `%XX` in upper-case hexadecimal. -/
def percentEncode (s : String) : String :=
  let hex (n : Nat) : Char := "0123456789ABCDEF".toList.getD n '0'
  String.ofList (s.toUTF8.data.toList.flatMap fun b =>
    let c := Char.ofNat b.toNat
    if c.isAlphanum || c == '-' || c == '.' || c == '_' || c == '~' then [c]
    else ['%', hex (b.toNat / 16), hex (b.toNat % 16)])

/-- Where the database is and how to connect to it. -/
structure DatabaseSettings where
  urlEnv : Option String := none
  url : Option String := none
  host : String := "localhost"
  port : Nat := 3306
  name : String := ""
  username : String := "root"
  password : Option String := none
  passwordEnv : Option String := none
  maxConnections : Nat := 5
  connectTimeoutSecs : Nat := 10
deriving DecidableEq, Repr

namespace DatabaseSettings

/-- The password: from the named environment variable if it is set, else the settings'. -/
def password? (d : DatabaseSettings) (env : Environment) : Option String :=
  (d.passwordEnv.bind env.get?).orElse fun _ => d.password

/-- The connection URL. -/
def connectionString (d : DatabaseSettings) (env : Environment) : String :=
  match d.urlEnv.bind env.get? with
  | some u => u
  | none =>
    match d.url with
    | some u => u
    | none =>
      let user := percentEncode d.username
      let place := "@" ++ d.host ++ ":" ++ toString d.port ++ "/" ++ d.name
      match d.password? env with
      | some p => "mysql://" ++ user ++ ":" ++ percentEncode p ++ place
      | none => "mysql://" ++ user ++ place

/-- The connection URL with the password hidden. -/
def redacted (d : DatabaseSettings) : String :=
  if d.urlEnv.isSome || d.url.isSome then "mysql://<from url>"
  else "mysql://" ++ d.username ++ ":***@" ++ d.host ++ ":" ++ toString d.port ++ "/" ++ d.name

end DatabaseSettings

/-- How the cache store is reached, and how cache keys are named. -/
structure CacheSettings where
  enabled : Bool := true
  backend : StoreBackend := .redis
  url : Option String := none
  host : String := "127.0.0.1"
  port : Nat := 6379
  socketPath : Option String := none
  password : Option String := none
  passwordEnv : Option String := none
  db : Int := 0
  nameSpace : String := "sql"
  storeLabel : Option String := none
  strictDecode : Bool := false
  lifetimes : Lifetimes := {}
deriving DecidableEq, Repr

namespace CacheSettings

/-- The store password: from the named environment variable if it is set, else the
settings'. -/
def password? (c : CacheSettings) (env : Environment) : Option String :=
  (c.passwordEnv.bind env.get?).orElse fun _ => c.password

/-- The store label: the settings' label if not blank, else the database name if not
blank, else `default`; trimmed. -/
def resolvedStoreLabel (c : CacheSettings) (databaseName : String) : String :=
  match c.storeLabel with
  | some l => if !Text.isBlankText l then Text.trim l else fallback
  | none => fallback
where
  fallback : String := if !Text.isBlankText databaseName then Text.trim databaseName else "default"

/-- The URL of the store. -/
def storeUrl (c : CacheSettings) (env : Environment) : String :=
  match c.url with
  | some u => u
  | none =>
    match c.socketPath, c.password? env with
    | some path, some p => "redis+unix://" ++ path ++ "?db=" ++ toString c.db ++ "&pass=" ++ percentEncode p
    | some path, none => "redis+unix://" ++ path ++ "?db=" ++ toString c.db
    | none, some p =>
      "redis://:" ++ percentEncode p ++ "@" ++ c.host ++ ":" ++ toString c.port ++ "/" ++ toString c.db
    | none, none => "redis://" ++ c.host ++ ":" ++ toString c.port ++ "/" ++ toString c.db

/-- The URL of the store with the password left out. -/
def storeUrlRedacted (c : CacheSettings) : String :=
  if c.url.isSome then "redis://<from url>"
  else match c.socketPath with
    | some path => "redis+unix://" ++ path ++ "?db=" ++ toString c.db
    | none => "redis://" ++ c.host ++ ":" ++ toString c.port ++ "/" ++ toString c.db

end CacheSettings

/-- The settings of a deployment. -/
structure Settings where
  project : Option String := none
  database : DatabaseSettings := {}
  cache : CacheSettings := {}
  logLevel : String := "info"
deriving DecidableEq, Repr

/-- Why settings could not be loaded. -/
inductive SettingsError where
  /-- The settings file could not be read. -/
  | io (reason : String)
  /-- The text is not valid YAML for settings. -/
  | yaml (reason : String)
  /-- The settings break a rule. -/
  | invalid (reason : String)
deriving DecidableEq, Repr

namespace SettingsError

/-- The error message. -/
def message : SettingsError → String
  | .io r => "IO error: " ++ r
  | .yaml r => "YAML parse error: " ++ r
  | .invalid r => "Configuration error: " ++ r

/-- The error's message, then the reason under it when it wraps one: a file that cannot be
read or a text that is not YAML carries the reason it was given. -/
def chain : SettingsError → List String
  | .io r => ["IO error: " ++ r, r]
  | .yaml r => ["YAML parse error: " ++ r, r]
  | .invalid r => ["Configuration error: " ++ r]

/-- The error's kind name. -/
def kindName : SettingsError → String
  | .io _ => "Io"
  | .yaml _ => "Yaml"
  | .invalid _ => "Config"

end SettingsError

namespace Settings

/-- The second part of every cache key. -/
def storeLabel (s : Settings) : String := s.cache.resolvedStoreLabel s.database.name

/-- Whether a name holds a character that cache keys reserve. -/
def hasKeyMeta (s : String) : Bool := s.toList.any fun c => c == ':' || c == '*'

/-- Checks the rules the types do not express. -/
def validate (s : Settings) : Except SettingsError Unit := do
  if s.database.maxConnections == 0 then
    throw (.invalid "database.max_connections must be at least 1")
  let ns := Text.trim s.cache.nameSpace
  if ns.isEmpty then throw (.invalid "cache.namespace must not be empty")
  if hasKeyMeta ns then
    throw (.invalid ("cache.namespace '" ++ ns ++ "' must not contain ':' or '*'"))
  if let some label := s.cache.storeLabel then
    if hasKeyMeta label then
      throw (.invalid ("cache.store_label '" ++ label ++ "' must not contain ':' or '*'"))

end Settings
end QueryShield
