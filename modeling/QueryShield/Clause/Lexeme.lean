import QueryShield.Guard.Lexicon
import QueryShield.Guard.Verdict
import QueryShield.Text.Blank
import QueryShield.Text.WordChar
import QueryShield.Text.Digit

/-!
# Lexemes of a WHERE fragment

A fragment is read from the left.  At each place the first of these forms that starts
there is taken:

1. a string in single quotes or in double quotes (a doubled quote stands for one quote);
2. a comparison: `<=`, `>=`, `!=`, `<>`, `=`, `<`, `>`;
3. a parenthesis or a comma;
4. a connective `AND`, `OR`, `IN`, `LIKE`, `IS`, `NOT`, `BETWEEN` standing as a whole word;
5. a name: a letter or `_`, then letters, digits, `_` or `$`, in dot-separated parts;
6. a number: an optional minus, decimal digits, and optionally a point and more digits.

Words and letters are compared ignoring case (the Kelvin sign counts as `k`, the long s
as `s`).  A string whose closing quote is missing ends at the last doubled quote inside it;
with no doubled quote it is no string at all.  A place where no form starts is skipped,
but only blanks may be skipped: any other character makes the fragment an injection, and
the skipped text, trimmed, is reported.
-/

namespace QueryShield

open Text

/-- The kinds of lexemes. -/
inductive LexemeKind where
  | identifier
  | operator
  | literal
  | keyword
  | punctuation
deriving DecidableEq, Repr

namespace LexemeKind

/-- The kind's wire name. -/
def name : LexemeKind → String
  | .identifier => "identifier"
  | .operator => "operator"
  | .literal => "literal"
  | .keyword => "keyword"
  | .punctuation => "punctuation"

end LexemeKind

/-- A lexeme: its text and kind.  Connectives and `NULL`/`TRUE`/`FALSE` are upper-cased. -/
structure Lexeme where
  text : String
  kind : LexemeKind
deriving DecidableEq, Repr

namespace Lexeme

/-- Whether the lexeme is a quoted string. -/
def isQuoted (l : Lexeme) : Bool :=
  l.kind == .literal && (l.text.startsWith "'" || l.text.startsWith "\"")

/-- Whether the lexeme is a number. -/
def isNumeric (l : Lexeme) : Bool := l.kind == .literal && !l.isQuoted

/-- Whether the lexeme is a comparison. -/
def isComparison (l : Lexeme) : Bool := l.kind == .operator

/-- The content of a quoted string, each doubled quote read as one; other lexemes as they
are. -/
def unquoted (l : Lexeme) : String :=
  let cs := l.text.toList
  if !l.isQuoted || cs.length < 2 then l.text
  else
    let q := cs.headD '\''
    let inner := (cs.drop 1).dropLast
    String.ofList (undouble q inner)
where
  undouble (q : Char) : List Char → List Char
    | a :: b :: rest => if a == q && b == q then q :: undouble q rest else a :: undouble q (b :: rest)
    | rest => rest

end Lexeme

namespace Lex

/-! ## The forms -/

/-- The length of a quoted string at the start of `t`, its quote being `q`. -/
def quotedLength (q : Char) (t : List Char) : Option Nat :=
  match t with
  | c :: body => if c == q then go body 1 none else none
  | [] => none
where
  /-- `n` characters are taken; `lastPair` is where the last doubled quote started. -/
  go : List Char → Nat → Option Nat → Option Nat
  | [], _, lastPair => lastPair.map (· + 1)
  | c :: rest, n, lastPair =>
    if c == q then
      match rest with
      | d :: rest' => if d == q then go rest' (n + 2) (some n) else some (n + 1)
      | [] => some (n + 1)
    else go rest (n + 1) lastPair

/-- The comparisons, in the order they are tried. -/
def comparisons : List String := ["<=", ">=", "!=", "<>", "=", "<", ">"]

/-- The connectives, in the order they are tried. -/
def connectives : List String := ["AND", "OR", "IN", "LIKE", "IS", "NOT", "BETWEEN"]

/-- Whether a character may start a name part (letters ignore case). -/
def isNameStart (c : Char) : Bool :=
  ('A' ≤ c && c ≤ 'Z') || ('a' ≤ c && c ≤ 'z') || c == '_' || c == 'K' || c == 'ſ'

/-- Whether a character may continue a name part. -/
def isNameChar (c : Char) : Bool := isNameStart c || ('0' ≤ c && c ≤ '9') || c == '$'

/-- Whether the place after `prev` and before `t` is a word boundary. -/
def boundary (prev : Option Char) (t : List Char) : Bool :=
  (prev.map isWordChar).getD false != (t.head?.map isWordChar).getD false

/-- The length of a connective standing as a whole word at the start of `t`. -/
def connectiveLength (prev : Option Char) (t : List Char) : Option Nat :=
  if !boundary prev t then none
  else
    connectives.findSome? fun w =>
      let n := w.length
      if foldPrefix t w.toList && boundary ((t.take n).getLast?) (t.drop n) then some n else none

/-- Dot-separated further parts of a name. -/
def nameParts : List Char → Nat
  | '.' :: c :: rest =>
    if isNameStart c then
      let more := rest.takeWhile isNameChar
      2 + more.length + nameParts (rest.drop more.length)
    else 0
  | _ => 0
termination_by cs => cs.length
decreasing_by simp_wf; omega

/-- The length of a name at the start of `t`. -/
def nameLength (t : List Char) : Option Nat :=
  match t with
  | c :: rest =>
    if isNameStart c then
      let more := rest.takeWhile isNameChar
      some (1 + more.length + nameParts (rest.drop more.length))
    else none
  | [] => none

/-- The length of a number at the start of `t`. -/
def numberLength (t : List Char) : Option Nat :=
  let (sign, t) := match t with
    | '-' :: r => (1, r)
    | r => (0, r)
  let ds := t.takeWhile isDecimalDigit
  if ds.isEmpty then none
  else
    let rest := t.drop ds.length
    let frac := match rest with
      | '.' :: r =>
        let fs := r.takeWhile isDecimalDigit
        if fs.isEmpty then 0 else fs.length + 1
      | _ => 0
    some (sign + ds.length + frac)

/-- The lexeme that starts `t` (after the character `prev`), with its length. -/
def lexemeAt (prev : Option Char) (t : List Char) : Option (Lexeme × Nat) :=
  let textOf (n : Nat) : String := String.ofList (t.take n)
  match quotedLength '\'' t with
  | some n => some (⟨textOf n, .literal⟩, n)
  | none =>
  match quotedLength '"' t with
  | some n => some (⟨textOf n, .literal⟩, n)
  | none =>
  match comparisons.find? (fun op => t.take op.length == op.toList) with
  | some op => some (⟨op, .operator⟩, op.length)
  | none =>
  match t with
  | c :: _ =>
    if c == '(' || c == ')' || c == ',' then some (⟨String.singleton c, .punctuation⟩, 1)
    else
      match connectiveLength prev t with
      | some n => some (⟨asciiUpper (textOf n), .keyword⟩, n)
      | none =>
      match nameLength t with
      | some n =>
        let w := textOf n
        if Lexicon.isClauseWord w then some (⟨asciiUpper w, .keyword⟩, n)
        else some (⟨w, .identifier⟩, n)
      | none =>
      match numberLength t with
      | some n => some (⟨textOf n, .literal⟩, n)
      | none => none
  | [] => none

/-! ## The lexer -/

/-- Refuses a skipped stretch that is not blank. -/
def checkGap (gap : List Char) : Except GuardError Unit :=
  let residue := trimChars gap
  if residue.isEmpty then .ok () else .error (.injection (String.ofList residue) .symbol)

/-- Lexes `t`, the text before it ending with `prev` and `gap` skipped since the last lexeme. -/
def go (prev : Option Char) (gap : List Char) : List Char → Except GuardError (List Lexeme)
  | [] => checkGap gap.reverse
      |>.map fun _ => []
  | c :: cs =>
    match lexemeAt prev (c :: cs) with
    | some (l, n) =>
      match checkGap gap.reverse with
      | .error e => .error e
      | .ok () =>
        let taken := (c :: cs).take n
        match go (taken.getLast?.orElse fun _ => prev) [] (cs.drop (n - 1)) with
        | .ok ls => .ok (l :: ls)
        | .error e => .error e
    | none => go (some c) (c :: gap) cs
termination_by cs => cs.length
decreasing_by all_goals (simp only [List.length_cons, List.length_drop]; omega)

end Lex

/-- The lexemes of a fragment, or the injection its unreadable text shows. -/
def Lexeme.lex (fragment : String) : Except GuardError (List Lexeme) :=
  Lex.go none [] fragment.toList

end QueryShield
