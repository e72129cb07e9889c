import QueryShield.Data.Datum
import QueryShield.Text.Fold

/-!
# Rows, records and row sets

A record is a row keyed by column name, keys sorted; when two columns share a name the
later cell wins.  A row set is what a read of table data returns: plain rows, or records.
As JSON a row set is `{"shape": "rows" | "records", "items": [...]}`.
-/

namespace QueryShield

/-- A row keyed by column name, sorted by key, one cell per key. -/
abbrev Record := List (String × Datum)

namespace Record

/-- Puts a cell under a key, replacing the cell the key had. -/
def put (k : String) (v : Datum) : Record → Record
  | [] => [(k, v)]
  | (k', v') :: rest =>
    if k == k' then (k, v) :: rest
    else if k < k' then (k, v) :: (k', v') :: rest
    else (k', v') :: put k v rest

/-- The record of a row under the given column names; surplus cells or names are dropped. -/
def ofRow (columns : List String) (row : Row) : Record :=
  (columns.zip row).foldl (fun acc (k, v) => put k v acc) []

/-- The record as a JSON object. -/
def toJson (r : Record) : Json := .object (r.map fun (k, v) => (k, v.toJson))

end Record

/-- Rows keyed by column name. -/
def beautify (columns : List String) (rows : List Row) : List Record :=
  rows.map (Record.ofRow columns)

/-- The result of reading table data: plain rows or records. -/
inductive RowSet where
  | rows (items : List Row)
  | records (items : List Record)
deriving DecidableEq, Repr

namespace RowSet

/-- The number of rows. -/
def size : RowSet → Nat
  | .rows items => items.length
  | .records items => items.length

/-- Whether there is no row. -/
def isEmpty (r : RowSet) : Bool := r.size == 0

/-- The shape's name. -/
def shape : RowSet → String
  | .rows _ => "rows"
  | .records _ => "records"

/-- The items as JSON. -/
def itemsJson : RowSet → Json
  | .rows items => .array (items.map fun row => .array (row.map Datum.toJson))
  | .records items => .array (items.map Record.toJson)

/-- The row set as JSON: shape and items. -/
def toJson (r : RowSet) : Json := .object [("shape", .string r.shape), ("items", r.itemsJson)]

/-- Reads a row as JSON text. -/
def readRow (depth : Nat) : Json.Reading Row := Json.seqOf "a sequence" Datum.read depth

/-- Reads a record as JSON text. -/
def readRecord (depth : Nat) : Json.Reading Record := Json.mapOf "a map" Datum.read depth

/-- Reads the items of a shape. -/
def readItems (shape : String) (depth : Nat) : Json.Reading RowSet :=
  if shape == "rows" then RowSet.rows <$> Json.seqOf "a sequence" readRow depth
  else RowSet.records <$> Json.seqOf "a sequence" readRecord depth

/-- The shape names. -/
def shapes : List String := ["rows", "records"]

/-- Reads a shape name. -/
def readShape : Json.Reading String := do
  let s ← Json.stringOf "variant identifier"
  if shapes.contains s then pure s
  else throw (← Json.fix { message := (Mismatch.unknownVariant s shapes).message })

/-- The items of a shape from an already read JSON value. -/
def itemsOfJson (shape : String) (v : Json) : Except String RowSet :=
  let rowOf (x : Json) : Except String Row := match x with
    | .array cells => cells.mapM Datum.ofJson?
    | _ => .error "invalid type: map, expected a sequence"
  let recordOf (x : Json) : Except String Record := match x with
    | .object ms => ms.foldlM (fun acc (k, c) => do pure (Record.put k (← Datum.ofJson? c) acc)) []
    | _ => .error "invalid type: sequence, expected a map"
  match v with
  | .array items =>
    if shape == "rows" then RowSet.rows <$> items.mapM rowOf
    else RowSet.records <$> items.mapM recordOf
  | _ => .error "invalid type: map, expected a sequence"

/-- The expectation of a row set as a whole. -/
def expected : String := "adjacently tagged enum TableData"

/-- Row-set members from the next one on: the shape and the items as far as read (items
that come before the shape are kept as JSON until it is known), at most `fuel` more members
tried, and `first` saying that none was read yet. -/
def readMembersFrom (depth : Nat) :
    Nat → Bool → Option String → Option Json → Option RowSet → Json.Reading RowSet
  | 0, _, _, _, _ => Json.failAhead "EOF while parsing an object"
  | fuel + 1, first, shape, early, result => do
    if ← Json.memberStart first then
      let k ← Json.key
      if k == "shape" then
        if shape.isSome then Json.mismatch (.duplicateField "shape")
        Json.colon
        let s ← readShape
        let result ← match early with
          | some v =>
            match itemsOfJson s v with
            | .ok r => pure (some r)
            | .error m => throw { message := m }
          | none => pure result
        readMembersFrom depth fuel false (some s) early result
      else if k == "items" then
        if result.isSome || early.isSome then Json.mismatch (.duplicateField "items")
        Json.colon
        match shape with
        | some s =>
          let r ← readItems s (depth - 1)
          readMembersFrom depth fuel false shape early (some r)
        | none =>
          let v ← Json.readValue (depth - 1)
          readMembersFrom depth fuel false shape (some v) result
      else
        Json.colon
        let _ ← Json.readValue (depth - 1)
        readMembersFrom depth fuel false shape early result
    else
      match shape, result with
      | some _, some r => pure r
      | none, _ => Json.mismatch (.missingField "shape")
      | some _, none => Json.mismatch (.missingField "items")

/-- The members of a row set written as an object: the shape, the items, unknown keys
skipped, each at most once. -/
def readMembers (depth : Nat) : Json.Reading RowSet := do
  let n ← Json.remaining
  readMembersFrom depth (n + 1) true none none none

/-- The members of a row set written as an array: the shape, then the items. -/
def readItemsInOrder (depth : Nat) : Json.Reading RowSet := do
  if ← Json.arrayItemStart true then
    let s ← readShape
    if ← Json.arrayItemStart false then readItems s (depth - 1)
    else Json.mismatch (.invalidLength 1 expected)
  else Json.mismatch (.invalidLength 0 expected)

/-- Reads a row set from JSON text. -/
def read (depth : Nat) : Json.Reading RowSet := do
  let r ← Json.attempt do
    match ← Json.blanks with
    | none => Json.failAhead Json.eofValue
    | some '{' => Json.bracketed depth (readMembers depth) Json.endObject
    | some '[' => Json.bracketed depth (readItemsInOrder depth) Json.endArray
    | some _ => Json.wrongType expected
  match r with
  | .ok v => pure v
  | .error e => throw (← Json.fix e)

/-- Reads a row set from a whole JSON text. -/
def parse (text : String) : Except Json.Fault RowSet := Json.readAll (read Json.nestingLimit) text

end RowSet

/-- What a query returns: the column names in order, then the rows. -/
structure Fetched where
  columns : List String := []
  rows : List Row := []
deriving DecidableEq, Repr

namespace Fetched

/-- The number of rows. -/
def size (f : Fetched) : Nat := f.rows.length

/-- Whether there is no row. -/
def isEmpty (f : Fetched) : Bool := f.rows.isEmpty

/-- The position of the first column whose name equals `name` up to ASCII case. -/
def columnIndex? (f : Fetched) (name : String) : Option Nat :=
  f.columns.findIdx? fun c => Text.eqIgnoreAsciiCase c name

/-- The first cell of the first row. -/
def scalar? (f : Fetched) : Option Datum := f.rows.head? >>= List.head?

/-- The rows keyed by column name. -/
def records (f : Fetched) : List Record := beautify f.columns f.rows

end Fetched
end QueryShield
