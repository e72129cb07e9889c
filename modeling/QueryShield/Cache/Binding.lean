import QueryShield.Query.Talk
import QueryShield.Cache.Key
import QueryShield.Json.Decoder
import QueryShield.Data.Selectors

/-!
# The cache in front of the query layer

Reads go through the cache: the key of the read is looked up; a payload that decodes is the
answer; otherwise the database is asked, and a successful answer is stored under the key
with the lifetime of its category (a positive lifetime given with the read beats it).
Failures of the database are passed on and never stored.

A payload that does not decode is either an error (strict decoding) or is deleted and the
database is asked.  An unreachable or refusing store never fails a read: when the look-up
fails the database is asked and nothing is stored, and a failed delete or store is ignored.

Writes go to the database first; only when the write succeeds are the keys that could hold
data derived from what it touched deleted, pattern by pattern.  That deletion is best
effort: it stops at the first failing store command, and the write's result stands.
-/

namespace QueryShield

/-- How a value of a read is written to and read back from the cache. -/
structure Payload (α : Type) where
  /-- The value as JSON. -/
  encode : α → Json
  /-- Reads a value back from stored text. -/
  decode : String → Except Json.Fault α

/-- The cache settings the query layer uses: where keys live, how long entries last and
whether an unreadable entry is an error. -/
structure Binding where
  space : KeySpace
  lifetimes : Lifetimes := {}
  strictDecode : Bool := false

namespace Binding

/-- Deletes every key matching one pattern; the count of keys that existed. -/
def deleteMatching (pattern : String) : ExceptT StoreFault Talk Nat := do
  let keys ← ExceptT.mk (Talk.request (.storeScan pattern))
  keys.foldlM (fun n key => do
    let existed ← ExceptT.mk (Talk.request (.storeDelete key))
    pure (if existed then n + 1 else n)) 0

/-- Deletes every key matching any of the patterns, in order; the count of keys removed.
The first failing store command ends the deletion. -/
def deletePatterns (patterns : List String) : ExceptT StoreFault Talk Nat :=
  patterns.foldlM (fun n p => do pure (n + (← deleteMatching p))) 0

/-- The cached value of a key, or the value of `fetch`, which is then stored. -/
def readThrough {α : Type} (b : Binding) (key : CacheKey) (override : Option Int)
    (payload : Payload α) (fetch : Query α) : Query α := do
  let rendered := key.render
  match ← Query.ask (.storeGet rendered) with
  | .error _ => fetch
  | .ok cached =>
    let hit ← match cached with
      | none => pure none
      | some text =>
        match payload.decode text with
        | .ok v => pure (some v)
        | .error e =>
          if b.strictDecode then Query.fail (.cache (.serialization e.text))
          else do
            let _ ← Query.ask (.storeDelete rendered)
            pure none
    match hit with
    | some v => pure v
    | none =>
      let v ← fetch
      let _ ← Query.ask (.storeSet rendered (Json.compact (payload.encode v))
        (b.lifetimes.effective key.category override))
      pure v

/-- Runs `write` and, when it succeeds, deletes the keys matching the patterns. -/
def writeThrough {α : Type} (patterns : List String) (write : Query α) : Query α := do
  let v ← write
  let _ ← ExceptT.lift (deletePatterns patterns).run
  pure v

/-- Deletes the keys matching the patterns; a store failure is a cache failure. -/
def invalidate (patterns : List String) : Talk (Except CacheFault Nat) :=
  (fun r => r.mapError CacheFault.store) <$> (deletePatterns patterns).run

/-! ## Keys of the reads -/

/-- The key of the server version. -/
def versionKey (b : Binding) : CacheKey := b.space.key .version "db_version"

/-- The key of the table list. -/
def tableNamesKey (b : Binding) : CacheKey := b.space.key .schema "table_names"

/-- The key of a table's column names. -/
def columnNamesKey (b : Binding) (table : String) : CacheKey :=
  b.space.key .schema ("columns:" ++ Name.normalize table)

/-- The key of a table's description. -/
def describeKey (b : Binding) (table : String) : CacheKey :=
  b.space.key .schema ("describe:" ++ Name.normalize table)

/-- The key of all triggers with their statements. -/
def triggersKey (b : Binding) : CacheKey := b.space.key .schema "triggers"

/-- The parameters naming a database, if one is given. -/
def databaseFields : Option String → KeyFields
  | some db => ({} : KeyFields).put "database" (.string (Name.normalize db))
  | none => {}

/-- The key of one trigger's creation text. -/
def triggerKey (b : Binding) (name : String) (database : Option String) : CacheKey :=
  b.space.keyWith .schema ("trigger:" ++ Name.normalize name) (databaseFields database)

/-- The key of the trigger names. -/
def triggerNamesKey (b : Binding) (database : Option String) : CacheKey :=
  b.space.keyWith .schema "trigger_names" (databaseFields database)

/-- The key of a row count. -/
def sizeKey (b : Binding) (table column : String) (filter : RowFilter) : CacheKey :=
  let t := Name.normalize table
  b.space.keyWith .count t
    ((({} : KeyFields).put "table" (.string t)).put "column" (.string (Name.normalize column))
      |>.put "where" filter.toJson)

/-- The key of a row read. -/
def rowsKey (b : Binding) (table : String) (columns : Projection) (filter : RowFilter)
    (asRecords : Bool) : CacheKey :=
  let t := Name.normalize table
  b.space.keyWith .data t
    (((({} : KeyFields).put "table" (.string t)).put "column" columns.toJson
      |>.put "where" filter.toJson) |>.put "beautify" (.bool asRecords))

end Binding

/-! ## Payloads of the reads -/

namespace Payload

/-- The payload of a read whose stored text is read by `reader`. -/
def ofReader {α : Type} (encode : α → Json) (reader : Nat → Json.Reading α) : Payload α :=
  ⟨encode, Json.readAll (reader Json.nestingLimit)⟩

/-- A server version. -/
def version : Payload ServerVersion :=
  ofReader (fun v => .object [("major", Json.int v.major), ("minor", Json.int v.minor),
    ("patch", Json.int v.patch), ("raw", .string v.raw)]) ServerVersion.read

/-- A list of names. -/
def names : Payload (List String) :=
  ofReader (fun ns => .array (ns.map Json.string)) (Json.seqOf "a sequence" fun _ => Json.stringOf)

/-- A table description. -/
def columns : Payload (List ColumnInfo) :=
  ofReader (fun cs => .array (cs.map ColumnInfo.toJson)) (Json.seqOf "a sequence" ColumnInfo.read)

/-- Triggers with their statements, sorted by name. -/
def triggers : Payload (List (String × String)) :=
  ofReader (fun ts => .object (ts.map fun (n, s) => (n, .string s)))
    (Json.mapOf "a map" fun _ => Json.stringOf)

/-- A creation text that may be missing. -/
def trigger : Payload (Option String) :=
  ofReader (fun t => match t with | some s => .string s | none => .null)
    (fun _ => Json.optionOf Json.stringOf)

/-- A row count. -/
def count : Payload Nat :=
  ofReader (fun n => Json.int n) (fun _ => Json.unsignedBelow (Nat.pow 2 64) "u64")

/-- A set of rows. -/
def rowSet : Payload RowSet := ofReader RowSet.toJson RowSet.read

end Payload
end QueryShield
