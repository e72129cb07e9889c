import QueryShield.Query.Statements
import QueryShield.Cache.Binding

/-!
# The query front

The front is what callers use: each schema and row operation, answered through the cache
when a cache binding is installed and straight from the database otherwise.

Reads go through the cache under the key of the read, with an optional lifetime that beats
the category's for that one entry.  Writes invalidate what they touch: creating or dropping
a table invalidates the table list and everything derived from the table; a row write
invalidates everything derived from the table; a trigger write invalidates that trigger, the
trigger list and the trigger names.  Whether the version comes from the cache or from the
server, it is recorded afterwards, since creating tables depends on it.
-/

namespace QueryShield

/-- An operation of the query front. -/
inductive Operation where
  | serverVersion (ttl : Option Int)
  | tableNames (ttl : Option Int)
  | columnNames (table : String) (ttl : Option Int)
  | describe (table : String) (ttl : Option Int)
  | triggers (ttl : Option Int)
  | trigger (name : String) (database : Option String) (ttl : Option Int)
  | triggerNames (database : Option String) (ttl : Option Int)
  | createTable (table : String) (columns : List (String × String))
  | removeTable (table : String)
  | installTrigger (name table timing body : String)
  | removeTrigger (name : String)
  | rows (table : String) (columns : Projection) (filter : RowFilter) (asRecords : Bool)
      (ttl : Option Int)
  | size (table column : String) (filter : RowFilter) (ttl : Option Int)
  | insert (table : String) (rows : List Row) (columns : Option (List String))
  | update (table : String) (values : Row) (columns : Option (List String)) (filter : RowFilter)
  | upsert (table : String) (rows : List Row) (columns : Option (List String))
  | delete (table : String) (filter : RowFilter)

/-- What an operation of the query front returns. -/
inductive Outcome where
  | version (v : ServerVersion)
  | names (names : List String)
  | columns (columns : List ColumnInfo)
  | triggers (triggers : List (String × String))
  | trigger (text : Option String)
  | written (w : WriteResult)
  | rowSet (r : RowSet)
  | count (n : Nat)
deriving DecidableEq

namespace Front

open Statements

/-- A read, through the cache when a binding is installed. -/
def cachedRead {α : Type} (binding : Option Binding) (key : Binding → CacheKey)
    (ttl : Option Int) (payload : Payload α) (direct : Query α) : Query α :=
  match binding with
  | some b => b.readThrough (key b) ttl payload direct
  | none => direct

/-- A write, invalidating the patterns of the binding when one is installed. -/
def cachedWrite {α : Type} (binding : Option Binding) (patterns : KeySpace → List String)
    (direct : Query α) : Query α :=
  match binding with
  | some b => Binding.writeThrough (patterns b.space) direct
  | none => direct

/-- The patterns a table write invalidates: the table list and everything of the table. -/
def tableWritePatterns (table : String) (s : KeySpace) : List String :=
  s.tableListPatterns ++ s.tablePatterns table

/-- Performs an operation; `clock` is the time stand-in words in clauses and values mean. -/
def perform (clock : Stamp) (binding : Option Binding) : Operation → Query Outcome
  | .serverVersion ttl => do
    let v ← cachedRead binding Binding.versionKey ttl Payload.version serverVersion
    let _ ← Query.ask (.noteVersion (some v))
    pure (.version v)
  | .tableNames ttl =>
    .names <$> cachedRead binding Binding.tableNamesKey ttl Payload.names tableNames
  | .columnNames table ttl =>
    .names <$> cachedRead binding (·.columnNamesKey table) ttl Payload.names (columnNames table)
  | .describe table ttl =>
    .columns <$> cachedRead binding (·.describeKey table) ttl Payload.columns (describe table)
  | .triggers ttl =>
    .triggers <$> cachedRead binding Binding.triggersKey ttl Payload.triggers triggers
  | .trigger name database ttl =>
    .trigger <$> cachedRead binding (·.triggerKey name database) ttl Payload.trigger
      (trigger name database)
  | .triggerNames database ttl =>
    .names <$> cachedRead binding (·.triggerNamesKey database) ttl Payload.names
      (triggerNames database)
  | .createTable table columns =>
    .written <$> cachedWrite binding (tableWritePatterns table) (createTable table columns)
  | .removeTable table =>
    .written <$> cachedWrite binding (tableWritePatterns table) (removeTable table)
  | .installTrigger name table timing body =>
    .written <$> cachedWrite binding (·.triggerPatterns (some name))
      (installTrigger name table timing body)
  | .removeTrigger name =>
    .written <$> cachedWrite binding (·.triggerPatterns (some name)) (removeTrigger name)
  | .rows table columns filter asRecords ttl =>
    .rowSet <$> cachedRead binding (·.rowsKey table columns filter asRecords) ttl Payload.rowSet
      (rows clock table columns filter asRecords)
  | .size table column filter ttl =>
    .count <$> cachedRead binding (·.sizeKey table column filter) ttl Payload.count
      (size clock table column filter)
  | .insert table rows columns =>
    .written <$> cachedWrite binding (·.tablePatterns table) (insert clock table rows columns)
  | .update table values columns filter =>
    .written <$> cachedWrite binding (·.tablePatterns table)
      (update clock table values columns filter)
  | .upsert table rows columns =>
    .written <$> cachedWrite binding (·.tablePatterns table) (upsert clock table rows columns)
  | .delete table filter =>
    .written <$> cachedWrite binding (·.tablePatterns table) (delete clock table filter)

end Front
end QueryShield
