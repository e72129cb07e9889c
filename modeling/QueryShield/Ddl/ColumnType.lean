import QueryShield.Text.Fold

/-!
# Column type definitions

A column's type definition in `CREATE TABLE` is written into the statement as it is, so it
is restricted to a plain alphabet: ASCII letters and digits, `_`, parentheses, commas,
spaces and dots.  No quote, semicolon or comment marker can appear in such a text.

Servers of major version 5 and older do not accept `DEFAULT CURRENT_TIMESTAMP` on every
column type; for them each such default (any case, one or more spaces between the words,
optionally followed by an empty call `( )`) is replaced by `NULL`.  A default only counts
where `DEFAULT` starts a word.
-/

namespace QueryShield
namespace ColumnType

/-- The characters a type definition may hold. -/
def isTypeChar (c : Char) : Bool :=
  (c.toNat < 0x80 && c.isAlphanum) || c == '_' || c == '(' || c == ')' || c == ',' ||
    c == ' ' || c == '.'

/-- Whether a type definition is non-empty and uses only the plain alphabet. -/
def isPlain (s : String) : Bool := !s.isEmpty && s.toList.all isTypeChar

/-- Whether a character of the plain alphabet belongs to a word. -/
def isWordChar (c : Char) : Bool := (c.toNat < 0x80 && c.isAlphanum) || c == '_'

/-- The length of an empty call `( )` at the start, spaces allowed inside and before. -/
def emptyCallLength (t : List Char) : Option Nat :=
  let a := t.takeWhile (· == ' ')
  match t.drop a.length with
  | '(' :: rest =>
    let b := rest.takeWhile (· == ' ')
    match rest.drop b.length with
    | ')' :: _ => some (a.length + b.length + 2)
    | _ => none
  | _ => none

/-- The length of a timestamp default at the start of `t`, if one starts there. -/
def defaultLength (t : List Char) : Option Nat :=
  if Text.foldPrefix t "DEFAULT".toList then
    let afterWord := t.drop 7
    let gap := (afterWord.takeWhile (· == ' ')).length
    let rest := afterWord.drop gap
    if gap > 0 && Text.foldPrefix rest "CURRENT_TIMESTAMP".toList then
      let stem := 7 + gap + 17
      some (stem + (emptyCallLength (t.drop stem)).getD 0)
    else none
  else none

/-- Replaces every timestamp default by `NULL`, scanning left to right; `afterWord` says
whether the character before `t` belongs to a word. -/
def dropDefaults (afterWord : Bool) (t : List Char) : List Char :=
  match t with
  | [] => []
  | c :: cs =>
    match (if afterWord then none else defaultLength (c :: cs)) with
    | some (n + 1) =>
      "NULL".toList ++
        dropDefaults (((c :: cs).take (n + 1)).getLast?.any isWordChar) ((c :: cs).drop (n + 1))
    | _ => c :: dropDefaults (isWordChar c) cs
termination_by t.length
decreasing_by all_goals (simp only [List.length_cons, List.length_drop]; omega)

/-- The definition for an old server: each timestamp default replaced by `NULL`. -/
def forOldServer (s : String) : String := String.ofList (dropDefaults false s.toList)

end ColumnType
end QueryShield
