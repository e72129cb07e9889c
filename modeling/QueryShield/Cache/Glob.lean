/-!
# Glob patterns over keys

The patterns a key-value store matches keys against: `*` stands for any run of characters,
`?` for one character, `[...]` for one character of a class (`^` first negates it, `a-z`
is a range in either order, `\` escapes the next character), `\c` for the character `c`,
and every other character for itself.  A class that is never closed matches nothing, and a
backslash that ends the pattern stands for itself.

Matching walks pattern and text together and, when they part, resumes after the most recent
`*` with that star taking one character more.  `Glob.escape` protects the five special
characters so that a name matches only itself.
-/

namespace QueryShield
namespace Glob

/-- Whether `c` lies between two bounds, taken in either order. -/
def between (low high c : Char) : Bool := (low ≤ c && c ≤ high) || (high ≤ c && c ≤ low)

/-- The remaining items of a class after its opening bracket (and `^`): whether `c` is one
of them, and the pattern after the closing bracket; `none` when the class is not closed.
An item is a character, possibly escaped, or a range `low-high` whose `high` is no `]`. -/
def classMatch (c : Char) : List Char → Bool → Option (Bool × List Char)
  | [], _ => none
  | ']' :: rest, found => some (found, rest)
  | '\\' :: low :: '-' :: high :: rest, found =>
    if high != ']' then classMatch c rest (found || between low high c)
    else classMatch c ('-' :: high :: rest) (found || low == c)
  | '\\' :: low :: rest, found => classMatch c rest (found || low == c)
  | low :: '-' :: high :: rest, found =>
    if high != ']' then classMatch c rest (found || between low high c)
    else classMatch c ('-' :: high :: rest) (found || low == c)
  | low :: rest, found => classMatch c rest (found || low == c)

/-- The pattern after its first item, if that item takes the text character `c`.  A star
is no such item: the matchers treat it before asking. -/
def take (pattern : List Char) (c : Char) : Option (List Char) :=
  match pattern with
  | [] => none
  | '*' :: _ => none
  | '?' :: rest => some rest
  | '[' :: rest =>
    let (negate, items) := match rest with
      | '^' :: more => (true, more)
      | _ => (false, rest)
    match classMatch c items false with
    | some (found, after) => if found != negate then some after else none
    | none => none
  | '\\' :: d :: rest => if d == c then some rest else none
  | d :: rest => if d == c then some rest else none

/-- Matching after a star: `resume` is the pattern after the latest star and `mark` the text
from where that star's run ends; on a mismatch the run takes one character more. -/
def afterStar (resume mark pattern text : List Char) (h : text.length ≤ mark.length) : Bool :=
  match text with
  | [] => pattern.all (· == '*')
  | c :: rest =>
    match pattern with
    | '*' :: after => afterStar after (c :: rest) after (c :: rest) (Nat.le_refl _)
    | _ =>
      match take pattern c with
      | some after => afterStar resume mark after rest (by simp at h; omega)
      | none =>
        match mark with
        | [] => false
        | _ :: mark' => afterStar resume mark' resume mark' (Nat.le_refl _)
termination_by (mark.length, text.length, pattern.length)
decreasing_by
  all_goals simp_wf
  · simp at h
    rcases Nat.lt_or_eq_of_le h with h' | h'
    · exact Prod.Lex.left _ _ (by simpa using h')
    · rw [← h']; exact Prod.Lex.right _ (Prod.Lex.right _ (by simp))
  · exact Prod.Lex.right _ (Prod.Lex.left _ _ (by simp))
  · exact Prod.Lex.left _ _ (by simp)

/-- Matching before any star: a mismatch fails at once. -/
def beforeStar (pattern text : List Char) : Bool :=
  match text with
  | [] => pattern.all (· == '*')
  | c :: rest =>
    match pattern with
    | '*' :: after => afterStar after (c :: rest) after (c :: rest) (Nat.le_refl _)
    | _ =>
      match take pattern c with
      | some after => beforeStar after rest
      | none => false

/-- Whether the text matches the pattern. -/
def accepts (pattern text : String) : Bool := beforeStar pattern.toList text.toList

/-- Whether a character is special in patterns. -/
def isSpecial (c : Char) : Bool := c == '*' || c == '?' || c == '[' || c == ']' || c == '\\'

/-- The name with a backslash before every special character. -/
def escape (name : String) : String :=
  String.ofList (name.toList.flatMap fun c => if isSpecial c then ['\\', c] else [c])

end Glob
end QueryShield
