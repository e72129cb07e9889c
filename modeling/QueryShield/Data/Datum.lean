import QueryShield.Json.Decoder
import QueryShield.Text.Blank

/-!
# Data

A datum is one value that travels between callers and the database: null, a boolean, a
64-bit integer, a double or a text.

* Its SQL literal is `NULL`, `TRUE`/`FALSE`, the number, or the text in single quotes with
  each single quote doubled.
* Its plain text is `NULL`, `true`/`false`, the number or the text itself; doubles are
  written with the fewest digits that read back, never in exponent form.
* As JSON it is the plain scalar.  Read from JSON, an integer that does not fit 64 signed
  bits becomes a double, and an array or object is refused.
-/

namespace QueryShield

/-- A value exchanged with the database. -/
inductive Datum where
  | null
  | bool (b : Bool)
  | int (n : Int)
  | float (x : Binary64)
  | text (s : String)
deriving DecidableEq, Repr, Inhabited

/-- A row of a result, cells in column order. -/
abbrev Row := List Datum

namespace Datum

/-- Whether the datum is null. -/
def isNull : Datum → Bool
  | .null => true
  | _ => false

/-- The text of a text datum. -/
def asText? : Datum → Option String
  | .text s => some s
  | _ => none

/-- Reads a signed 64-bit decimal integer: an optional sign, then ASCII digits only. -/
def parseInt64? (s : String) : Option Int :=
  let (neg, digits) := match s.toList with
    | '-' :: r => (true, r)
    | '+' :: r => (false, r)
    | r => (false, r)
  if digits.isEmpty || !digits.all Char.isDigit then none
  else
    let n := digits.foldl (fun acc c => acc * 10 + (c.toNat - '0'.toNat)) 0
    let v : Int := if neg then -(n : Int) else n
    if v < -(Nat.pow 2 63 : Int) || v ≥ Nat.pow 2 63 then none else some v

/-- The datum as an integer: integers as they are, booleans as `0` or `1`, texts read as
integers after trimming; `none` otherwise. -/
def asInt? : Datum → Option Int
  | .int n => some n
  | .bool b => some (if b then 1 else 0)
  | .text s => parseInt64? (Text.trim s)
  | _ => none

/-- A text with each single quote doubled, in single quotes. -/
def quoteText (s : String) : String :=
  "'" ++ String.ofList (s.toList.flatMap fun c => if c == '\'' then ['\'', '\''] else [c]) ++ "'"

/-- The SQL literal of a datum. -/
def literal : Datum → String
  | .null => "NULL"
  | .bool b => if b then "TRUE" else "FALSE"
  | .int n => toString n
  | .float x => x.plainText
  | .text s => quoteText s

/-- The plain text of a datum. -/
def display : Datum → String
  | .null => "NULL"
  | .bool b => if b then "true" else "false"
  | .int n => toString n
  | .float x => x.plainText
  | .text s => s

/-- The datum as a JSON scalar. -/
def toJson : Datum → Json
  | .null => .null
  | .bool b => .bool b
  | .int n => Json.int n
  | .float x => Json.float x
  | .text s => .string s

/-- The message for a JSON value that is no datum. -/
def notADatum : String := "data did not match any variant of untagged enum SqlValue"

/-- The datum of a JSON scalar: integers that fit 64 signed bits stay integers, other
numbers become doubles; arrays and objects are refused. -/
def ofJson? : Json → Except String Datum
  | .null => .ok .null
  | .bool b => .ok (.bool b)
  | .number (.unsigned n) => .ok (if n < Nat.pow 2 63 then .int n else .float (Binary64.ofNat n))
  | .number (.signed n) => .ok (.int n)
  | .number (.float x) => .ok (.float x)
  | .string s => .ok (.text s)
  | _ => .error notADatum

/-- Reads a datum from JSON text. -/
def read (depth : Nat) : Json.Reading Datum := do
  let v ← Json.readValue depth
  match ofJson? v with
  | .ok d => pure d
  | .error m => throw { message := m }

end Datum
end QueryShield
