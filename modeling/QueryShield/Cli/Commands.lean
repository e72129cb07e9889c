import QueryShield.Cli.Failure
import QueryShield.Guard.Screen
import QueryShield.Clause.Bound
import QueryShield.Cache.Key
import QueryShield.Settings.ConnectionUrl
import QueryShield.Json.Reader

/-!
# The commands of the command line

Each command is a function from its arguments to the text it prints, or to a failure.

* `scan` inspects a text with the chosen pattern families and prints the verdict, as a line
  or as pretty JSON; the caller exits with status 1 when the text was flagged.
* `parameterize` rewrites clause fragments (one fragment is a whole clause; several are joined
  with `AND`) into placeholder form and prints the text and the parameters, optionally the
  clause with the parameters put back.
* `cache-key` prints the key a cached read would use: parameters are `name=JSON`, and text
  that is not JSON is taken as a string; set parameters must be JSON arrays.
* `check-config` prints a summary of the settings.
* `probe` connects to the database; it reports why the connection failed.
-/

namespace QueryShield
namespace Cli

/-! ## scan -/

/-- The pattern families of the scan options (`symbols`, `keywords`, `logic-gates`, `all`). -/
def familyOfArg? : String → Option Families
  | "symbols" => some .onlySymbols
  | "keywords" => some .onlyKeywords
  | "logic-gates" => some .onlyLogicWords
  | "all" => some .all
  | _ => none

/-- The families of several scan options taken together. -/
def familiesOf (args : List Families) : Families := args.foldl Families.union Families.none

/-- A verdict as JSON: whether flagged, the category and the matched text. -/
def verdictJson (v : Verdict) : Json :=
  .object [("flagged", .bool v.isFlagged),
    ("category", match v.hazard? with | some h => .string h.wireName | none => .null),
    ("matched_pattern", match v.matched? with | some m => .string m | none => .null)]

/-- What `scan` prints for a verdict. -/
def scanText (v : Verdict) (json : Bool) : String :=
  if json then Json.render (verdictJson v) ++ "\n"
  else match v with
    | .flagged h m => "✗ flagged (" ++ h.variantName ++ "): matched " ++ Text.shown m ++ "\n"
    | .clean => "✔ clean\n"

/-- Scans a text: the verdict and what is printed. -/
def scan (text : String) (families : List Families) (json : Bool) : Verdict × String :=
  let v := Screen.inspect text (familiesOf families)
  (v, scanText v json)

/-! ## parameterize -/

/-- The filter of the fragments: one fragment is a clause, others are joined. -/
def filterOf : List String → RowFilter
  | [single] => .clause single
  | many => .fragments many

/-- What `parameterize` prints. -/
def parameterize (clock : Stamp) (fragments : List String) (inline json : Bool) :
    Except Failure String := do
  let c ← (BoundClause.ofFilter clock (filterOf fragments)).mapError
    fun e => ⟨"Clause rejected", [e.message]⟩
  if json then
    let members := [("params", Json.array (c.params.map Datum.toJson)), ("text", .string c.text)]
    let members := if inline then ("inline", .string c.renderInline) :: members else members
    return Json.render (.object members) ++ "\n"
  let lines := c.text :: (c.params.zipIdx.map fun (p, i) =>
    "  ?" ++ toString (i + 1) ++ " = " ++ Json.compact p.toJson)
  let lines := if inline then lines ++ [c.renderInline] else lines
  pure (String.join (lines.map (· ++ "\n")))

/-! ## cache-key -/

/-- Splits `name=JSON`; a value that is not JSON is taken as a string. -/
def parseParam (raw : String) : Except Failure (String × Json) :=
  match raw.splitOn "=" with
  | [] | [_] => .error ⟨"parameter '" ++ raw ++ "' must look like name=value", []⟩
  | n :: rest =>
    let name := Text.trim n
    if name.isEmpty then .error ⟨"parameter '" ++ raw ++ "' has an empty name", []⟩
    else
      let value := "=".intercalate rest
      .ok (name, match Json.parse value with
        | .ok v => v
        | .error _ => .string value)

/-- The key a cached read would use under the settings. -/
def cacheKey (settings : Settings) (category : Category) (name : String)
    (params setParams : List String) : Except Failure CacheKey := do
  let fields ← params.foldlM (fun (k : KeyFields) raw => do
    let (f, v) ← parseParam raw
    pure (k.put f v)) {}
  let fields ← setParams.foldlM (fun (k : KeyFields) raw => do
    let (f, v) ← parseParam raw
    match v with
    | .array members => pure (k.putSet f members)
    | _ => throw ⟨"set parameter '" ++ f ++ "' must be a JSON array", []⟩) fields
  pure { nameSpace := settings.cache.nameSpace, storeLabel := settings.storeLabel,
         category, name, paramHash := fields.digest }

/-! ## check-config -/

/-- The summary lines of the settings. -/
def summary (s : Settings) : List String :=
  let cache :=
    if s.cache.enabled then
      ["cache: " ++ (match s.cache.backend with
          | .redis => s.cache.storeUrlRedacted
          | .memory => "memory"),
        "keys: " ++ s.cache.nameSpace ++ ":" ++ s.storeLabel ++ ":<category>:<name>"] ++
      Category.all.map fun c =>
        "  ttl " ++ c.name ++ ": " ++ (match s.cache.lifetimes.effective c none with
          | some n => toString n ++ "s"
          | none => "no expiry")
    else ["cache: disabled"]
  ["database: " ++ s.database.redacted] ++ cache ++ ["log level: " ++ s.logLevel]

/-- What `check-config` prints for the settings read from `path`. -/
def checkText (path : String) (s : Settings) : String :=
  "Checking " ++ path ++ "\n" ++ String.join ((summary s).map fun l => "  " ++ l ++ "\n") ++
    "✔ Configuration valid\n"

/-! ## probe -/

/-- Why connecting to the database failed: the URL cannot be read, the unix socket it names
does not exist, or nothing answers at its address. -/
def connectFault (d : DatabaseSettings) (env : Environment) : PoolFault :=
  match d.openPool env with
  | .error f => f
  | .ok () =>
    let url := d.connectionString env
    let socket := match Url.read url with
      | .ok parts => (parts.query.map ConnectionUrl.queryPairs).getD [] |>.any (·.1 == "socket")
      | .error _ => false
    ⟨.connectivity, "error communicating with database: " ++
      (if socket then "No such file or directory (os error 2)" else "Connection refused (os error 111)")⟩

/-- Probing the database fails to connect. -/
def probe (s : Settings) (env : Environment) : Failure :=
  ⟨"Failed to connect to " ++ s.database.redacted, [(connectFault s.database env).text]⟩

end Cli
end QueryShield
