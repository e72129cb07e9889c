import QueryShield.Toml.Tree
import QueryShield.Text.Utf8

/-!
# TOML: tokens

The text is cut into tokens, each with its byte span: runs of blanks, line ends (`\n`, `\r\n`,
or a lone `\r`), comments (up to the line end), the marks `= . , [ ] { }`, strings, and atoms.
An atom is a run of characters up to the next blank, line end, comment or mark; it holds bare
keys, numbers, booleans and dates.

A basic string ends at its closing quote, a backslash protecting the next backslash or quote;
one left open ends before the line end.  A literal string ends at its closing apostrophe or
before the line end.  A multi-line string ends at the first triple quote not protected by a
backslash, taking up to two more quotes with it.
-/

namespace QueryShield
namespace Toml

/-- The kinds of token. -/
inductive Kind where
  | blank
  | newline
  | comment
  | equals
  | dot
  | comma
  | openSquare
  | closeSquare
  | openCurly
  | closeCurly
  | basic
  | literal
  | basicLines
  | literalLines
  | atom
deriving DecidableEq, Repr, Inhabited

/-- A token: its kind, its text and its span. -/
structure Token where
  kind : Kind
  text : String
  span : Span
deriving Repr, Inhabited

/-- Whether a character ends an atom. -/
def endsAtom (c : Char) : Bool := ".=,[]\x7b\x7d \t#\r\n".contains c

/-- The length of a single-line basic string after its opening quote. -/
def basicLength : List Char → Nat
  | [] => 0
  | '"' :: _ => 1
  | '\n' :: _ => 0
  | '\\' :: '\\' :: rest => 2 + basicLength rest
  | '\\' :: '"' :: rest => 2 + basicLength rest
  | _ :: rest => 1 + basicLength rest

/-- The length of a multi-line string after its opening delimiter, up to and with its closing
delimiter; `q` is the quote and `escapes` whether a backslash protects what follows. -/
def linesLength (q : Char) (escapes : Bool) (cs : List Char) : Nat :=
  match cs with
  | [] => 0
  | c :: rest =>
    if escapes && c == '\\' then
      match h : rest with
      | d :: more =>
        if d == '\\' || d == q then 2 + linesLength q escapes more
        else 1 + linesLength q escapes (d :: more)
      | [] => 1
    else if c == q then
      match h : rest with
      | d :: e :: more =>
        if d == q && e == q then
          match more with
          | f :: g :: _ => if f == q then (if g == q then 5 else 4) else 3
          | [f] => if f == q then 4 else 3
          | [] => 3
        else 1 + linesLength q escapes (d :: e :: more)
      | [d] => 1 + linesLength q escapes [d]
      | [] => 1
    else 1 + linesLength q escapes rest
termination_by cs.length
decreasing_by all_goals (simp only [List.length_cons]; omega)

/-- The kind and length in characters of the token at the start of a text. -/
def nextToken (cs : List Char) : Kind × Nat :=
  match cs with
  | [] => (.blank, 1)
  | c :: rest =>
    if c == ' ' || c == '\t' then (.blank, 1 + (rest.takeWhile fun d => d == ' ' || d == '\t').length)
    else if c == '\n' then (.newline, 1)
    else if c == '\r' then (.newline, if rest.head? == some '\n' then 2 else 1)
    else if c == '#' then (.comment, 1 + (rest.takeWhile fun d => d != '\n' && d != '\r').length)
    else if c == '=' then (.equals, 1)
    else if c == '.' then (.dot, 1)
    else if c == ',' then (.comma, 1)
    else if c == '[' then (.openSquare, 1)
    else if c == ']' then (.closeSquare, 1)
    else if c == '{' then (.openCurly, 1)
    else if c == '}' then (.closeCurly, 1)
    else if c == '"' then
      match rest with
      | '"' :: '"' :: more => (.basicLines, 3 + linesLength '"' true more)
      | _ => (.basic, 1 + basicLength rest)
    else if c == '\'' then
      match rest with
      | '\'' :: '\'' :: more => (.literalLines, 3 + linesLength '\'' false more)
      | _ => (.literal, 1 + (match rest.findIdx? fun d => d == '\'' || d == '\n' with
          | some i => if rest[i]? == some '\'' then i + 1 else i
          | none => rest.length))
    else (.atom, 1 + (rest.takeWhile (!endsAtom ·)).length)

/-- The tokens of a text from a byte offset. -/
def tokenize (cs : List Char) (offset : Nat) : List Token :=
  match _h : cs with
  | [] => []
  | _ :: _ =>
    let (kind, n) := nextToken cs
    let taken := cs.take (max n 1)
    let size := Utf8.size taken
    ⟨kind, String.ofList taken, ⟨offset, offset + size⟩⟩ :: tokenize (cs.drop (max n 1)) (offset + size)
termination_by cs.length
decreasing_by simp only [List.length_drop, _h, List.length_cons]; omega

end Toml
end QueryShield
