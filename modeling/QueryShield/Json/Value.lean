import QueryShield.Number.Binary64

/-!
# JSON values and their text

A JSON number is an unsigned integer below `2^64`, a negative integer down to `-2^63`, or
a double.  Objects keep their members in the order they are built; a value read from text
keeps its members sorted by key (see `Json.Reader`).

Text is written the compact way (no blanks) or the pretty way (two spaces of indent, a
member per line).  In strings, the quote, the backslash and the control characters are
escaped: the usual short escapes where there is one, `\u00XX` (lower-case hex) for the
others; every other character is written as itself.  Integers are written in decimal and
doubles by `Binary64.exchangeText`; a double that is not finite is written `null`.
-/

namespace QueryShield

/-- A JSON number. -/
inductive JsonNumber where
  /-- An integer in `[0, 2^64)`. -/
  | unsigned (n : Nat)
  /-- A negative integer in `[-2^63, 0)`. -/
  | signed (n : Int)
  /-- Any other number, as a double. -/
  | float (x : Binary64)
deriving DecidableEq, Repr

/-- A JSON value. -/
inductive Json where
  | null
  | bool (b : Bool)
  | number (n : JsonNumber)
  | string (s : String)
  | array (items : List Json)
  | object (members : List (String × Json))
deriving Repr, Inhabited

namespace JsonNumber

/-- The integer of a signed or unsigned number. -/
def toInt? : JsonNumber → Option Int
  | .unsigned n => some n
  | .signed n => some n
  | .float _ => none

/-- The number of an integer, unsigned when it is not negative. -/
def ofInt (n : Int) : JsonNumber :=
  if n < 0 then .signed n else .unsigned n.toNat

/-- The text of a number. -/
def text : JsonNumber → String
  | .unsigned n => toString n
  | .signed n => toString n
  | .float x => if x.isFinite then x.exchangeText else "null"

end JsonNumber

namespace Json

/-- A JSON integer. -/
def int (n : Int) : Json := .number (.ofInt n)

/-- A JSON double. -/
def float (x : Binary64) : Json := .number (.float x)

/-- The hexadecimal digit of a value below sixteen, in lower case. -/
def hexDigit (n : Nat) : Char :=
  if n < 10 then Char.ofNat (48 + n) else Char.ofNat (87 + n)

/-- The escaped form of one character inside a string. -/
def escapeChar (c : Char) : List Char :=
  match c with
  | '"' => ['\\', '"']
  | '\\' => ['\\', '\\']
  | '\n' => ['\\', 'n']
  | '\r' => ['\\', 'r']
  | '\t' => ['\\', 't']
  | '\x08' => ['\\', 'b']
  | '\x0c' => ['\\', 'f']
  | c =>
    if c.toNat < 0x20 then ['\\', 'u', '0', '0', hexDigit (c.toNat / 16), hexDigit (c.toNat % 16)]
    else [c]

/-- A string in quotes with its characters escaped. -/
def quote (s : String) : String :=
  String.ofList ('"' :: s.toList.flatMap escapeChar ++ ['"'])

mutual
/-- The compact text of a value. -/
def compact : Json → String
  | .null => "null"
  | .bool b => if b then "true" else "false"
  | .number n => n.text
  | .string s => quote s
  | .array items => "[" ++ compactItems items ++ "]"
  | .object members => "\x7b" ++ compactMembers members ++ "\x7d"

/-- The compact texts of array items, comma separated. -/
def compactItems : List Json → String
  | [] => ""
  | [x] => compact x
  | x :: xs => compact x ++ "," ++ compactItems xs

/-- The compact texts of object members, comma separated. -/
def compactMembers : List (String × Json) → String
  | [] => ""
  | [(k, v)] => quote k ++ ":" ++ compact v
  | (k, v) :: ms => quote k ++ ":" ++ compact v ++ "," ++ compactMembers ms
end

/-- Indentation of `n` levels of two spaces. -/
def indent (n : Nat) : String := String.ofList (List.replicate (2 * n) ' ')

mutual
/-- The pretty text of a value at nesting level `level`. -/
def pretty (level : Nat) : Json → String
  | .array [] => "[]"
  | .object [] => "\x7b\x7d"
  | .array items => "[\n" ++ prettyItems (level + 1) items ++ "\n" ++ indent level ++ "]"
  | .object members =>
    "\x7b\n" ++ prettyMembers (level + 1) members ++ "\n" ++ indent level ++ "\x7d"
  | v => compact v

/-- Pretty array items, one per line. -/
def prettyItems (level : Nat) : List Json → String
  | [] => ""
  | [x] => indent level ++ pretty level x
  | x :: xs => indent level ++ pretty level x ++ ",\n" ++ prettyItems level xs

/-- Pretty object members, one per line. -/
def prettyMembers (level : Nat) : List (String × Json) → String
  | [] => ""
  | [(k, v)] => indent level ++ quote k ++ ": " ++ pretty level v
  | (k, v) :: ms => indent level ++ quote k ++ ": " ++ pretty level v ++ ",\n" ++ prettyMembers level ms
end

/-- The pretty text of a value. -/
def render (v : Json) : String := pretty 0 v

/-- A member of an object, by key. -/
def field? (v : Json) (key : String) : Option Json :=
  match v with
  | .object members => members.lookup key
  | _ => none

/-- Inserts a member into a key-sorted member list, replacing a member of the same key. -/
def insertSorted (k : String) (v : Json) : List (String × Json) → List (String × Json)
  | [] => [(k, v)]
  | (k', v') :: ms =>
    if k == k' then (k, v) :: ms
    else if k < k' then (k, v) :: (k', v') :: ms
    else (k', v') :: insertSorted k v ms

end Json
end QueryShield
