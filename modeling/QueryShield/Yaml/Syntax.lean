/-!
# YAML: positions, tokens, events and syntax errors

A YAML text is read in two stages.  The scanner turns characters into tokens (indicators,
scalars, and the implicit starts and ends of indented blocks); the parser turns tokens
into events (scalars, and the starts and ends of sequences and mappings).  Both stages
report a failure as a syntax error: a problem at a position, often with the context (a
construct and where it started) in which it arose.

A position counts characters, lines and columns from zero; messages write lines and
columns from one and leave out a position at the very start of the text.
-/

namespace QueryShield
namespace Yaml

/-- A position in the text: character index, line and column, all from zero. -/
structure Mark where
  index : Nat := 0
  line : Nat := 0
  column : Nat := 0
deriving DecidableEq, Repr, Inhabited

namespace Mark

/-- The position as messages write it, counting from one. -/
def text (m : Mark) : String :=
  "line " ++ toString (m.line + 1) ++ " column " ++ toString (m.column + 1)

/-- Whether the position is the first column of the first line. -/
def isStart (m : Mark) : Bool := m.line == 0 && m.column == 0

/-- Whether two positions share line and column. -/
def sameSpot (a b : Mark) : Bool := a.line == b.line && a.column == b.column

end Mark

/-- How a scalar was written. -/
inductive Style where
  | plain
  | singleQuoted
  | doubleQuoted
  | literal
  | folded
deriving DecidableEq, Repr

/-- What a token is. -/
inductive TokenKind where
  | streamStart
  | streamEnd
  | documentStart
  | documentEnd
  | blockSequenceStart
  | blockMappingStart
  | blockEnd
  | flowSequenceStart
  | flowSequenceEnd
  | flowMappingStart
  | flowMappingEnd
  | blockEntry
  | flowEntry
  | key
  | value
  | scalar (text : String) (style : Style)
deriving DecidableEq, Repr

/-- A token and where it starts and stops. -/
structure Token where
  kind : TokenKind
  start : Mark
  stop : Mark
deriving Repr

/-- What an event is. -/
inductive Event where
  | scalar (text : String) (style : Style)
  | sequenceStart
  | sequenceEnd
  | mappingStart
  | mappingEnd
  | documentStart
  | documentEnd
  | streamEnd
deriving DecidableEq, Repr

/-- A syntax error: a problem at a position, and the context in which it arose. -/
structure SyntaxError where
  problem : String
  problemMark : Mark
  context : Option (String × Mark) := none
deriving Repr

namespace SyntaxError

/-- The message: the problem and its position, then the context and its position when
that differs from the problem's. -/
def message (e : SyntaxError) : String :=
  e.problem ++ (if e.problemMark.isStart then "" else " at " ++ e.problemMark.text) ++
    match e.context with
    | none => ""
    | some (c, m) =>
      ", " ++ c ++
        (if !m.isStart && !m.sameSpot e.problemMark then " at " ++ m.text else "")

end SyntaxError
end Yaml
end QueryShield
