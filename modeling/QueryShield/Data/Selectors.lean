import QueryShield.Json.Value
import QueryShield.Text.Blank

/-!
# Column projections and row filters

A projection says which columns a read returns: all of them, a list of names, or a
free expression.  A row filter says which rows: none (all rows), one clause, or several
fragments joined with `AND`.  Blank fragments are ignored, so a filter of blank text only
selects every row.
-/

namespace QueryShield

/-- The columns a read returns. -/
inductive Projection where
  | all
  | names (names : List String)
  | expression (text : String)
deriving DecidableEq, Repr, Inhabited

namespace Projection

/-- Whether every column is selected: no names, or a blank expression. -/
def isAll : Projection → Bool
  | .all => true
  | .names ns => ns.isEmpty
  | .expression e => Text.isBlankText e

/-- The listed names, if the projection is a list. -/
def listed : Projection → List String
  | .names ns => ns
  | _ => []

/-- Whether a piece of a column list is a bare name: ASCII letters and digits, `_`, `$`,
`.` and backticks. -/
def isBareName (piece : String) : Bool :=
  (Text.trim piece).toList.all fun c =>
    (c.toNat < 0x80 && c.isAlphanum) || c == '_' || c == '$' || c == '.' || c == '`'

/-- Reads a column list: blank or `*` selects all; comma-separated bare names are a list;
anything else is an expression (trimmed). -/
def ofText (s : String) : Projection :=
  let t := Text.trim s
  if t.isEmpty || t == "*" then .all
  else
    let pieces := t.splitOn ","
    if !(pieces.filter (fun p => !Text.isBlankText p)).all isBareName then .expression t
    else .names ((pieces.map Text.trim).filter (fun p => !p.isEmpty))

/-- The projection as JSON: null, an array of names, or the expression. -/
def toJson : Projection → Json
  | .all => .null
  | .names ns => .array (ns.map Json.string)
  | .expression e => .string e

/-- The kind's name. -/
def kind : Projection → String
  | .all => "all"
  | .names _ => "names"
  | .expression _ => "expression"

end Projection

/-- Which rows a statement touches. -/
inductive RowFilter where
  | none
  | clause (text : String)
  | fragments (parts : List String)
deriving DecidableEq, Repr, Inhabited

namespace RowFilter

/-- The fragments that are not blank, in order. -/
def parts : RowFilter → List String
  | .none => []
  | .clause c => if Text.isBlankText c then [] else [c]
  | .fragments ps => ps.filter fun p => !Text.isBlankText p

/-- Whether the filter selects every row. -/
def isEmpty (f : RowFilter) : Bool := f.parts.isEmpty

/-- The filter as JSON: null, the clause, or the array of fragments. -/
def toJson : RowFilter → Json
  | .none => .null
  | .clause c => .string c
  | .fragments ps => .array (ps.map Json.string)

end RowFilter
end QueryShield
