import QueryShield.Guard.Screen

/-!
# Quoting names

Table, trigger, database and column names are written into statement text, so they are
held to a strict alphabet (ASCII letters and digits, `_` and `$`), screened for symbols and
keywords, and put in backticks.

A name given in backticks is read without them (one pair, after trimming blanks).  A column
name that is a reserved word, other than a statement word, is quoted without screening:
`key` becomes ``key`` in backticks.
-/

namespace QueryShield
namespace Name

/-- A name trimmed of blanks and of one surrounding pair of backticks. -/
def normalize (name : String) : String :=
  let t := Text.trim name
  let cs := t.toList
  if cs.length ≥ 2 && cs.head? == some '`' && cs.getLast? == some '`' then
    String.ofList ((cs.drop 1).dropLast)
  else t

/-- Whether a character may stand in a name. -/
def isNameChar (c : Char) : Bool :=
  (c.toNat < 0x80 && c.isAlphanum) || c == '_' || c == '$'

/-- Refuses an empty name or one with a character outside the alphabet. -/
def checkAlphabet (name : String) : Except GuardError Unit :=
  if name.isEmpty then .error (.malformed "identifier must not be empty")
  else if name.toList.all isNameChar then .ok ()
  else .error (.injection name .symbol)

/-- A name in backticks, after checking its alphabet and screening it. -/
def quote (name : String) : Except GuardError String := do
  let n := normalize name
  checkAlphabet n
  Screen.ensureSafe n Families.symbolsAndKeywords
  pure ("`" ++ n ++ "`")

/-- A column name in backticks; reserved words other than statement words are not screened. -/
def quoteColumn (name : String) : Except GuardError String := do
  let n := normalize name
  checkAlphabet n
  if !Lexicon.isStatementWord n && Lexicon.isReserved n then return "`" ++ n ++ "`"
  Screen.ensureSafe n Families.symbolsAndKeywords
  pure ("`" ++ n ++ "`")

/-- Column names in backticks, stopping at the first refused one. -/
def quoteColumns (names : List String) : Except GuardError (List String) := names.mapM quoteColumn

end Name
end QueryShield
