import QueryShield.Number.Binary64

/-!
# TOML documents as trees

A document is a table.  Every key and every value keeps its span, the byte range of the text
it was read from, so that a failure can point at it.  A table also records how it came to be:
named by a header, created on the way to a header or a dotted key, created by a dotted key, or
written inline; the rules on redefining tables depend on it.

A failure has a message and, usually, a span.  It is shown as the line and column of the span's
start (lines and columns count from one, columns in characters), the line itself under a gutter
as wide as the line number, a row of carets under the span (at least one, and not past the end
of the line), and the message.
-/

namespace QueryShield
namespace Toml

/-- A byte range of the text. -/
structure Span where
  start : Nat
  stop : Nat
deriving DecidableEq, Repr, Inhabited

namespace Span

/-- The empty span at the end of a span. -/
def after (s : Span) : Span := ⟨s.stop, s.stop⟩

/-- The empty span at the start of a span. -/
def before (s : Span) : Span := ⟨s.start, s.start⟩

/-- The span from the start of one to the end of another. -/
def join (a b : Span) : Span := ⟨a.start, b.stop⟩

end Span

/-- How a table came to be. -/
inductive Origin where
  | implicit
  | header
  | dotted
  | inline
deriving DecidableEq, Repr

/-- A value of a document. -/
inductive Value where
  | string (s : String)
  | integer (n : Int)
  | float (x : Binary64)
  | boolean (b : Bool)
  | datetime (text : String)
  /-- An array; `ofTables` when it was made by `[[...]]` headers. -/
  | array (items : List (Value × Span)) (ofTables : Bool)
  /-- A table: each key with its span, and its value with its span. -/
  | table (entries : List (String × Span × Value × Span)) (origin : Origin)
deriving Repr, Inhabited

namespace Value

/-- The kind of a value as messages name it. -/
def kindName : Value → String
  | .string _ => "string"
  | .integer _ => "integer"
  | .float _ => "float"
  | .boolean _ => "boolean"
  | .datetime _ => "datetime"
  | .array _ _ => "array"
  | .table _ .inline => "inline table"
  | .table _ _ => "table"

end Value

/-- A failure to read a document: its message and where. -/
structure Fault where
  message : String
  span : Option Span := none
deriving DecidableEq, Repr

/-- The line (from zero) and column (in characters, from zero) of a byte offset.  At or past
the end, the place is counted from the last byte.  When the character at the offset is not a
single byte, the column counts bytes instead, as a character cut in two cannot be counted. -/
def place (bytes : List UInt8) (index : Nat) : Nat × Nat :=
  if bytes.isEmpty then (0, index)
  else
    let safe := min index (bytes.length - 1)
    let extra := index - safe
    let before := bytes.take safe
    let lineStart := match (before.zipIdx.filter (·.1 == 10)).getLast? with
      | some (_, i) => i + 1
      | none => 0
    let line := (before.filter (· == 10)).length
    let lead := (bytes.drop safe).head?.getD 0
    let column :=
      if lead < 0x80 then ((bytes.take safe).drop lineStart |>.filter (fun b => b < 0x80 || 0xC0 ≤ b)).length
      else safe - lineStart
    (line, column + extra)

/-- The failure as shown for a text. -/
def Fault.render (f : Fault) (text : String) : String :=
  match f.span with
  | none => f.message ++ "\n"
  | some span =>
    let bytes := text.toUTF8.toList
    let (line, column) := place bytes span.start
    let number := toString (line + 1)
    let gutter := String.ofList (List.replicate (number.length + 1) ' ')
    let content := ((text.splitOn "\n")[line]?).getD ""
    let width := min (span.stop - span.start) (content.utf8ByteSize - column)
    "TOML parse error at line " ++ number ++ ", column " ++ toString (column + 1) ++ "\n" ++
      gutter ++ "|\n" ++
      number ++ " | " ++ content ++ "\n" ++
      gutter ++ "|" ++ String.ofList (List.replicate (column + 1) ' ') ++
      String.ofList (List.replicate (max 1 width) '^') ++ "\n" ++
      f.message ++ "\n"

end Toml
end QueryShield
