import QueryShield.Json.Decoder
import QueryShield.Text.Blank

/-!
# Server versions, column descriptions and write results

The server version is read from the text the server reports: the leading digits of the
first three dot-separated parts (a part without leading digits counts as zero, except the
first, which must have some).  A column description is one row of `DESCRIBE`.  A write
reports how many rows it affected; several writes of one operation add up.
-/

namespace QueryShield

/-- The version a server reports. -/
structure ServerVersion where
  major : Nat
  minor : Nat
  patch : Nat
  raw : String
deriving DecidableEq, Repr

namespace ServerVersion

/-- The number formed by the leading ASCII digits of a part, if there are some and it fits
in 32 bits. -/
def leadingNumber (part : String) : Option Nat :=
  let digits := part.toList.takeWhile Char.isDigit
  if digits.isEmpty then none
  else
    let n := digits.foldl (fun acc c => acc * 10 + (c.toNat - '0'.toNat)) 0
    if n < Nat.pow 2 32 then some n else none

/-- Reads a version from the text a server reports, trimmed. -/
def parse? (raw : String) : Option ServerVersion :=
  let t := Text.trim raw
  let parts := t.splitOn "."
  match parts.map leadingNumber with
  | some major :: rest =>
    some { major,
           minor := (rest.head?.bind id).getD 0,
           patch := ((rest.drop 1).head?.bind id).getD 0,
           raw := t }
  | _ => none

/-- The version as `major.minor.patch`. -/
def display (v : ServerVersion) : String :=
  toString v.major ++ "." ++ toString v.minor ++ "." ++ toString v.patch

/-- The version as JSON. -/
def toJson (v : ServerVersion) : Json :=
  .object [("major", Json.int v.major), ("minor", Json.int v.minor), ("patch", Json.int v.patch),
    ("raw", .string v.raw)]

/-- Reads a version from JSON text. -/
def read (depth : Nat) : Json.Reading ServerVersion := do
  let u32 : Nat → Json.Reading Json := fun _ => do pure (Json.int (← Json.unsignedBelow (Nat.pow 2 32) "u32"))
  let fields := Json.recordOf "DbVersion"
    [⟨"major", u32, false⟩, ⟨"minor", u32, false⟩, ⟨"patch", u32, false⟩,
     ⟨"raw", fun _ => do pure (Json.string (← Json.stringOf)), false⟩] depth
  match ← fields with
  | [some (.number (.unsigned a)), some (.number (.unsigned b)), some (.number (.unsigned c)),
     some (.string r)] => pure ⟨a, b, c, r⟩
  | _ => pure ⟨0, 0, 0, ""⟩

end ServerVersion

/-- One column as `DESCRIBE` reports it. -/
structure ColumnInfo where
  field : String
  columnType : String
  nullable : Bool
  key : String
  default : Option String
  extra : String
deriving DecidableEq, Repr

namespace ColumnInfo

/-- The description as JSON. -/
def toJson (c : ColumnInfo) : Json :=
  .object [("field", .string c.field), ("type", .string c.columnType), ("nullable", .bool c.nullable),
    ("key", .string c.key), ("default", match c.default with | some d => .string d | none => .null),
    ("extra", .string c.extra)]

/-- Reads a description from JSON text. -/
def read (depth : Nat) : Json.Reading ColumnInfo := do
  let str : Nat → Json.Reading Json := fun _ => do pure (Json.string (← Json.stringOf))
  let fields := Json.recordOf "ColumnDescription"
    [⟨"field", str, false⟩, ⟨"type", str, false⟩,
     ⟨"nullable", fun _ => do pure (Json.bool (← Json.boolOf)), false⟩,
     ⟨"key", str, false⟩,
     ⟨"default", fun _ => do
        match ← Json.optionOf (Json.stringOf) with
        | some s => pure (Json.string s)
        | none => pure Json.null, true⟩,
     ⟨"extra", str, false⟩] depth
  match ← fields with
  | [some (.string f), some (.string t), some (.bool n), some (.string k), d, some (.string e)] =>
    let d := match d with
      | some (.string s) => some s
      | _ => none
    pure ⟨f, t, n, k, d, e⟩
  | _ => pure ⟨"", "", false, "", none, ""⟩

end ColumnInfo

/-- What a write reports: the number of rows it affected. -/
structure WriteResult where
  rowsAffected : Nat
deriving DecidableEq, Repr

namespace WriteResult

/-- Nothing written. -/
def zero : WriteResult := ⟨0⟩

/-- Two writes of one operation taken together. -/
def merge (a b : WriteResult) : WriteResult := ⟨a.rowsAffected + b.rowsAffected⟩

/-- The result as JSON. -/
def toJson (w : WriteResult) : Json := .object [("rows_affected", Json.int w.rowsAffected)]

end WriteResult
end QueryShield
