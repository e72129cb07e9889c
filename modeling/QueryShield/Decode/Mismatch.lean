import QueryShield.Number.Binary64

/-!
# Why a decoder refused its input

The messages of typed decoding, shared by the JSON, YAML and TOML readers: what was found
where something else was expected, a value out of range, a missing or repeated field, an
unknown variant, a wrong length.  `Found.describe` names what was found the way the
messages write it, for instance ``integer `5` `` or `string "x"`.
-/

namespace QueryShield

/-- What a decoder found in place of what it expected. -/
inductive Found where
  | boolean (b : Bool)
  | unsigned (n : Nat)
  | signed (n : Int)
  | float (x : Binary64)
  | char (c : Char)
  | str (s : String)
  | unit
  | option
  | sequence
  | map
  | other (what : String)
deriving Repr

namespace Found

/-- The escaped form of a character inside a debug-quoted text. -/
def debugEscape (c : Char) : List Char :=
  match c with
  | '"' => ['\\', '"']
  | '\\' => ['\\', '\\']
  | '\n' => ['\\', 'n']
  | '\r' => ['\\', 'r']
  | '\t' => ['\\', 't']
  | '\x00' => ['\\', '0']
  | c =>
    if c.toNat < 0x20 || (0x7f ≤ c.toNat && c.toNat < 0xa0) then
      "\\u\x7b".toList ++ (Nat.toDigits 16 c.toNat) ++ ['\x7d']
    else [c]

/-- A text in double quotes with quotes, backslashes and control characters escaped. -/
def debugQuote (s : String) : String :=
  String.ofList ('"' :: s.toList.flatMap debugEscape ++ ['"'])

/-- What was found, as messages write it. -/
def describe : Found → String
  | .boolean b => "boolean `" ++ (if b then "true" else "false") ++ "`"
  | .unsigned n => "integer `" ++ toString n ++ "`"
  | .signed n => "integer `" ++ toString n ++ "`"
  | .float x => "floating point `" ++ x.pointedText ++ "`"
  | .char c => "character `" ++ String.singleton c ++ "`"
  | .str s => "string " ++ debugQuote s
  | .unit => "unit value"
  | .option => "Option value"
  | .sequence => "sequence"
  | .map => "map"
  | .other what => what

end Found

/-- Why a decoder refused its input. -/
inductive Mismatch where
  | invalidType (found : Found) (expected : String)
  | invalidValue (found : Found) (expected : String)
  | invalidLength (len : Nat) (expected : String)
  | unknownVariant (variant : String) (expected : List String)
  | missingField (field : String)
  | duplicateField (field : String)
  | custom (message : String)
deriving Repr

namespace Mismatch

/-- A list of names as the messages write the alternatives. -/
def alternatives : List String → String
  | [] => "there are no variants"
  | [a] => "expected `" ++ a ++ "`"
  | [a, b] => "expected `" ++ a ++ "` or `" ++ b ++ "`"
  | names => "expected one of " ++ ", ".intercalate (names.map fun n => "`" ++ n ++ "`")

/-- The message text. -/
def message : Mismatch → String
  | .invalidType f e => "invalid type: " ++ f.describe ++ ", expected " ++ e
  | .invalidValue f e => "invalid value: " ++ f.describe ++ ", expected " ++ e
  | .invalidLength n e => "invalid length " ++ toString n ++ ", expected " ++ e
  | .unknownVariant v names => "unknown variant `" ++ v ++ "`, " ++ alternatives names
  | .missingField f => "missing field `" ++ f ++ "`"
  | .duplicateField f => "duplicate field `" ++ f ++ "`"
  | .custom m => m

end Mismatch
end QueryShield
