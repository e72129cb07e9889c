import QueryShield.Query.Talk
import QueryShield.Clause.Bound
import QueryShield.Name.Quote
import QueryShield.Ddl.TriggerText
import QueryShield.Ddl.ColumnType
import QueryShield.Data.Selectors

/-!
# Statements for the schema and row operations

Each operation builds its statement and talks to the database.  Every name goes through the
guard and is put in backticks before it is written into a statement; every value travels as
a bound parameter.  Nothing the guard refuses ever reaches the database: a refusal ends the
conversation before its first request.

The clock is the one the clause parameters are read with (`now` and `current_date` stand
for it).  Cells are read as text by their plain form; a null cell has no text.
-/

namespace QueryShield
namespace Statements

open Query

/-- The text of a cell; a null cell has none. -/
def cellText : Datum → Option String
  | .null => none
  | d => some d.display

/-- The texts of the first column, null cells left out. -/
def firstColumn (rows : Fetched) : List String :=
  rows.rows.filterMap fun row => row.head? >>= cellText

/-- A count read from the first cell: as an integer, negative counts as zero, and zero when
the cell is missing or not an integer. -/
def countOf (rows : Fetched) : Nat :=
  ((rows.scalar? >>= Datum.asInt?).map Int.toNat).getD 0

/-- A name in backticks, or the refusal. -/
def quoted (name : String) : Query String := guard (Name.quote name)

/-! ## Schema reads -/

/-- The server version, which is then recorded. -/
def serverVersion : Query ServerVersion := do
  let rows ← fetch "SELECT VERSION()" []
  let raw := ((rows.scalar? >>= cellText)).getD ""
  match ServerVersion.parse? raw with
  | some v =>
    let _ ← ask (.noteVersion (some v))
    pure v
  | none => fail (.invalid ("unrecognized server version '" ++ raw ++ "'"))

/-- The tables of the database. -/
def tableNames : Query (List String) := do
  pure (firstColumn (← fetch "SHOW TABLES" []))

/-- The rows of `DESCRIBE` for a table.  Columns are found by name, ignoring case, and
otherwise by their usual position. -/
def describe (table : String) : Query (List ColumnInfo) := do
  let q ← quoted table
  let rows ← fetch ("DESCRIBE " ++ q) []
  let index (name : String) (fallback : Nat) := (rows.columnIndex? name).getD fallback
  let cell (row : Row) (i : Nat) : Option String := row[i]? >>= cellText
  let text (row : Row) (i : Nat) : String := (cell row i).getD ""
  pure (rows.rows.map fun row =>
    { field := text row (index "Field" 0),
      columnType := text row (index "Type" 1),
      nullable := Text.eqIgnoreAsciiCase (text row (index "Null" 2)) "YES",
      key := text row (index "Key" 3),
      default := cell row (index "Default" 4),
      extra := text row (index "Extra" 5) })

/-- The column names of a table. -/
def columnNames (table : String) : Query (List String) := do
  pure ((← describe table).map (·.field))

/-- The statement text that selects the triggers of the current database. -/
def triggersOfCurrent : String :=
  "SELECT TRIGGER_NAME, ACTION_STATEMENT FROM information_schema.triggers " ++
    "WHERE TRIGGER_SCHEMA = DATABASE() ORDER BY TRIGGER_NAME"

/-- Adds a trigger to a name-sorted map, replacing one of the same name. -/
def putTrigger (name statement : String) : List (String × String) → List (String × String)
  | [] => [(name, statement)]
  | (n, s) :: rest =>
    if name == n then (name, statement) :: rest
    else if name < n then (name, statement) :: (n, s) :: rest
    else (n, s) :: putTrigger name statement rest

/-- The triggers of the database with their statements, sorted by name. -/
def triggers : Query (List (String × String)) := do
  let rows ← fetch triggersOfCurrent []
  pure (rows.rows.foldl (fun acc row =>
    match row.head? >>= cellText, row[1]? >>= cellText with
    | some n, some s => putTrigger n s acc
    | _, _ => acc) [])

/-- The creation text of a trigger, optionally in another database; none when the server
returns nothing. -/
def trigger (name : String) (database : Option String) : Query (Option String) := do
  let q ← quoted name
  let target ← match database with
    | some db => do pure ((← quoted db) ++ "." ++ q)
    | none => pure q
  let rows ← fetch ("SHOW CREATE TRIGGER " ++ target) []
  let column := (rows.columnIndex? "SQL Original Statement").getD 2
  pure (rows.rows.head? >>= fun row => row[column]? >>= cellText)

/-- The trigger names of a database, or of the current one. -/
def triggerNames (database : Option String) : Query (List String) := do
  match database with
  | some db =>
    let _ ← quoted db
    let rows ← fetch ("SELECT TRIGGER_NAME FROM information_schema.triggers " ++
      "WHERE TRIGGER_SCHEMA = ? ORDER BY TRIGGER_NAME") [.text db]
    pure (firstColumn rows)
  | none =>
    let rows ← fetch ("SELECT TRIGGER_NAME FROM information_schema.triggers " ++
      "WHERE TRIGGER_SCHEMA = DATABASE() ORDER BY TRIGGER_NAME") []
    pure (firstColumn rows)

/-! ## Schema writes -/

/-- One column definition: the quoted name and the checked type, adapted to old servers. -/
def columnDefinition (oldServer : Bool) (column : String × String) : Query String := do
  let name ← guard (Name.quoteColumn column.1)
  let kind := Text.trim column.2
  if !ColumnType.isPlain kind then fail (.rejected (.injection kind .symbol))
  let kind := if oldServer then ColumnType.forOldServer kind else kind
  pure (name ++ " " ++ kind)

/-- Creates a table unless it exists, from `(name, type)` pairs.  A server of unknown
version counts as old. -/
def createTable (table : String) (columns : List (String × String)) : Query WriteResult := do
  let q ← quoted table
  if columns.isEmpty then
    fail (.invalid ("table '" ++ table ++ "' needs at least one column"))
  let version ← ask .knownVersion
  let oldServer := version.all (·.major ≤ 5)
  let definitions ← columns.mapM (columnDefinition oldServer)
  execute ("CREATE TABLE IF NOT EXISTS " ++ q ++ " (" ++ ", ".intercalate definitions ++
    ") ENGINE=InnoDB") []

/-- Drops a table if it exists. -/
def removeTable (table : String) : Query WriteResult := do
  execute ("DROP TABLE IF EXISTS " ++ (← quoted table)) []

/-- Drops a trigger if it exists. -/
def removeTrigger (name : String) : Query WriteResult := do
  execute ("DROP TRIGGER IF EXISTS " ++ (← quoted name)) []

/-- Installs a trigger: the definition is checked and cleaned, any trigger of that name is
dropped, then the new one is created.  The counts of both statements add up. -/
def installTrigger (name table timing body : String) : Query WriteResult := do
  let statement ← guard (TriggerText.clean name table timing body)
  let dropped ← removeTrigger name
  let created ← execute statement []
  pure (dropped.merge created)

/-! ## Row reads -/

/-- The select list of a projection: `*`, a screened expression, or quoted names. -/
def selectList (columns : Projection) : Query String :=
  if columns.isAll then pure "*"
  else match columns with
    | .expression e => do
      let e := Text.trim e
      guard (Screen.ensureSafe e Families.symbolsAndKeywords)
      pure e
    | _ => do pure (", ".intercalate (← guard (Name.quoteColumns columns.listed)))

/-- The rows of a table, with the selected columns and the rows the filter keeps; as
records keyed by column when `asRecords`. -/
def rows (clock : Stamp) (table : String) (columns : Projection) (filter : RowFilter)
    (asRecords : Bool) : Query RowSet := do
  let q ← quoted table
  let selected ← selectList columns
  let clause ← guard (BoundClause.ofFilter clock filter)
  let result ← fetch ("SELECT " ++ selected ++ " FROM " ++ q ++ clause.whereSql) clause.params
  pure (if asRecords then .records result.records else .rows result.rows)

/-- The number of rows the filter keeps; a blank column or `*` counts every row, another
column its non-null values. -/
def size (clock : Stamp) (table : String) (column : String) (filter : RowFilter) : Query Nat := do
  let q ← quoted table
  let c := Text.trim column
  let counted ← if c.isEmpty || c == "*" then pure "*" else guard (Name.quoteColumn c)
  let clause ← guard (BoundClause.ofFilter clock filter)
  let result ← fetch ("SELECT COUNT(" ++ counted ++ ") FROM " ++ q ++ clause.whereSql) clause.params
  pure (countOf result)

/-! ## Row writes -/

/-- The quoted target columns: the given ones, or the table's own when none are given. -/
def targetColumns (table : String) (columns : Option (List String)) : Query (List String) := do
  let names ← match columns with
    | some ns => if ns.isEmpty then columnNames table else pure ns
    | none => columnNames table
  if names.isEmpty then fail (.invalid ("table '" ++ table ++ "' has no columns"))
  guard (Name.quoteColumns names)

/-- A row cut to `width` values with each value's stand-in words replaced; a shorter row is
refused. -/
def fitRow (clock : Stamp) (table : String) (row : Row) (width : Nat) : Query Row :=
  if row.length < width then
    fail (.invalid ("row for '" ++ table ++ "' has " ++ toString row.length ++
      " values, expected " ++ toString width))
  else pure ((row.take width).map (Datum.normalize clock))

/-- One `INSERT` of several rows. -/
def insertRows (table : String) (columns : List String) (rows : List Row) : Query WriteResult :=
  let group := "(" ++ ", ".intercalate (columns.map fun _ => "?") ++ ")"
  execute ("INSERT INTO " ++ table ++ " (" ++ ", ".intercalate columns ++ ") VALUES " ++
    ", ".intercalate (rows.map fun _ => group)) rows.flatten

/-- One `UPDATE` that sets the columns to the values on the rows the clause keeps. -/
def updateRows (table : String) (columns : List String) (values : Row) (clause : BoundClause) :
    Query WriteResult :=
  execute ("UPDATE " ++ table ++ " SET " ++ ", ".intercalate (columns.map (· ++ " = ?")) ++
    clause.whereSql) (values ++ clause.params)

/-- Inserts rows; no rows means no statement. -/
def insert (clock : Stamp) (table : String) (rows : List Row) (columns : Option (List String)) :
    Query WriteResult := do
  let q ← quoted table
  let cs ← targetColumns table columns
  if rows.isEmpty then return WriteResult.zero
  let fitted ← rows.mapM fun r => fitRow clock table r cs.length
  insertRows q cs fitted

/-- Sets the columns to the values on every row the filter keeps. -/
def update (clock : Stamp) (table : String) (values : Row) (columns : Option (List String))
    (filter : RowFilter) : Query WriteResult := do
  let q ← quoted table
  let cs ← targetColumns table columns
  let vs ← fitRow clock table values cs.length
  let clause ← guard (BoundClause.ofFilter clock filter)
  updateRows q cs vs clause

/-- One row of an upsert: updated when a row with the same first value exists, inserted
otherwise. -/
def upsertRow (clock : Stamp) (table q : String) (cs : List String) (row : Row) :
    Query WriteResult := do
  if row.isEmpty then return WriteResult.zero
  let values ← fitRow clock table row cs.length
  let keyColumn := cs.headD ""
  let key := values.headD .null
  let existing ← fetch ("SELECT COUNT(*) FROM " ++ q ++ " WHERE " ++ keyColumn ++ " = ?") [key]
  if countOf existing > 0 then updateRows q cs values (BoundClause.equals keyColumn key)
  else insertRows q cs [values]

/-- Updates or inserts each row by its first value; empty rows are skipped. -/
def upsert (clock : Stamp) (table : String) (rows : List Row) (columns : Option (List String)) :
    Query WriteResult := do
  let q ← quoted table
  let cs ← targetColumns table columns
  rows.foldlM (fun acc row => do pure (acc.merge (← upsertRow clock table q cs row)))
    WriteResult.zero

/-- Deletes the rows the filter keeps. -/
def delete (clock : Stamp) (table : String) (filter : RowFilter) : Query WriteResult := do
  let q ← quoted table
  let clause ← guard (BoundClause.ofFilter clock filter)
  execute ("DELETE FROM " ++ q ++ clause.whereSql) clause.params

end Statements
end QueryShield
