import QueryShield.Clause.Lexeme
import QueryShield.Guard.Screen
import QueryShield.Data.Datum
import QueryShield.Data.Selectors
import QueryShield.Clock.Stamp

/-!
# Bound clauses

A bound clause is `WHERE` text in which every literal is a placeholder `?`, with the
literals as parameters in order.  `BoundClause.ofFilter` builds it from a row filter:

* each non-blank fragment is lexed; strings and numbers become `?` and parameters, names
  are checked part by part, connectives and punctuation stay;
* a name part that is a reserved word (not a logic word, not a statement word) is quoted
  with backticks; any other part must pass the guard for symbols and keywords;
* a closing parenthesis without its opening one is refused;
* pieces are joined with single spaces, except after `(` or a comparison and before `)`,
  `,` or a comparison;
* fragments are joined with ` AND `; when there are several, a fragment with an `OR`
  outside parentheses is put in parentheses.

A quoted parameter is its content, or the clock's time for a `now`/`current_date`
sentinel.  A number with a point is a double (text if it does not read as one); any other
number is an integer, or text when it does not fit 64 bits.

The clause as a whole must have as many opening as closing parentheses and no placeholder
directly followed by a quoted name.
-/

namespace QueryShield

/-- `WHERE` text with placeholders, and the parameters in placeholder order. -/
structure BoundClause where
  text : String
  params : List Datum
deriving DecidableEq, Repr

namespace BoundClause

/-- The clause that selects every row. -/
def empty : BoundClause := ⟨"", []⟩

/-- The clause `column = ?` with one parameter. -/
def equals (quotedColumn : String) (value : Datum) : BoundClause :=
  ⟨quotedColumn ++ " = ?", [value]⟩

/-- Whether the clause selects every row. -/
def isEmpty (c : BoundClause) : Bool := Text.isBlankText c.text

/-- The number of placeholders. -/
def placeholderCount (c : BoundClause) : Nat := c.text.toList.count '?'

/-- The clause as it follows a statement: ` WHERE text`, or nothing. -/
def whereSql (c : BoundClause) : String := if c.isEmpty then "" else " WHERE " ++ c.text

/-- The clause with each placeholder replaced by its parameter's SQL literal. -/
def renderInline (c : BoundClause) : String :=
  String.join (go c.text.toList c.params)
where
  go : List Char → List Datum → List String
    | [], _ => []
    | '?' :: cs, p :: ps => p.literal :: go cs ps
    | ch :: cs, ps => String.singleton ch :: go cs ps

/-- The clause as JSON: text and parameters. -/
def toJson (c : BoundClause) : Json :=
  .object [("text", .string c.text), ("params", .array (c.params.map Datum.toJson))]

/-! ## Pieces of a fragment -/

/-- The parameter of a literal lexeme. -/
def literalValue (clock : Stamp) (l : Lexeme) : Datum :=
  if l.isQuoted then
    let content := l.unquoted
    .text ((Stamp.sentinel clock content).getD content)
  else if l.text.toList.contains '.' then
    match decimalOf? l.text with
    | some x => .float x
    | none => .text l.text
  else
    match Datum.parseInt64? l.text with
    | some n => .int n
    | none => .text l.text
where
  /-- A decimal `-ddd.ddd` of ASCII digits as the nearest double. -/
  decimalOf? (s : String) : Option Binary64 :=
    let (neg, cs) := match s.toList with
      | '-' :: r => (true, r)
      | r => (false, r)
    let whole := cs.takeWhile (· != '.')
    let frac := (cs.drop (whole.length + 1))
    if whole.isEmpty || frac.isEmpty || !(whole ++ frac).all Char.isDigit then none
    else
      let n := (whole ++ frac).foldl (fun a c => a * 10 + (c.toNat - '0'.toNat)) 0
      some (Binary64.ofDecimal neg n (-(frac.length : Int)))

/-- One part of a name: quoted when reserved, otherwise screened. -/
def namePart (part : String) : Except GuardError String :=
  if !Lexicon.isStatementWord part && Lexicon.needsQuoting part then .ok ("`" ++ part ++ "`")
  else
    match Screen.ensureSafe part Families.symbolsAndKeywords with
    | .ok () => .ok part
    | .error e => .error e

/-- A dotted name, part by part. -/
def nameText (name : String) : Except GuardError String := do
  let parts ← ((name.toList.splitOn '.').map String.ofList).mapM namePart
  pure (".".intercalate parts)

/-- Joins pieces: a space between two pieces, except after `(` or a comparison and before
`)`, `,` or a comparison. -/
def joinPieces (pieces : List (String × LexemeKind)) : String :=
  (pieces.foldl (fun (out, glue) (text, kind) =>
    let closing := text == ")" || text == ","
    let comparison := kind == .operator
    let out := if glue || out.isEmpty || closing || comparison then out else out ++ " "
    (out ++ text, text == "(" || comparison)) ("", false)).1

/-- What a fragment becomes: its clause and whether it has an `OR` outside parentheses. -/
structure Piece where
  clause : BoundClause
  topLevelOr : Bool

/-- Binds one fragment. -/
def ofFragment (clock : Stamp) (fragment : String) : Except GuardError Piece := do
  let lexemes ← Lexeme.lex fragment
  -- the depth is a 32-bit signed count: past `2^31 - 1` open parentheses it wraps to negative
  let step (acc : List (String × LexemeKind) × List Datum × Int32 × Bool) (l : Lexeme) :
      Except GuardError (List (String × LexemeKind) × List Datum × Int32 × Bool) :=
    let (pieces, params, depth, orTop) := acc
    match l.kind with
    | .literal => .ok (("?", .literal) :: pieces, literalValue clock l :: params, depth, orTop)
    | .identifier => do
      let t ← nameText l.text
      pure ((t, .identifier) :: pieces, params, depth, orTop)
    | .keyword =>
      .ok ((l.text, .keyword) :: pieces, params, depth, orTop || (depth == 0 && l.text == "OR"))
    | .punctuation =>
      let depth := if l.text == "(" then depth + 1 else if l.text == ")" then depth - 1 else depth
      if depth < 0 then .error (.malformed ("unbalanced parentheses in '" ++ fragment ++ "'"))
      else .ok ((l.text, .punctuation) :: pieces, params, depth, orTop)
    | .operator => .ok ((l.text, .operator) :: pieces, params, depth, orTop)
  let (pieces, params, _, orTop) ← lexemes.foldlM step ([], [], 0, false)
  pure ⟨⟨joinPieces pieces.reverse, params.reverse⟩, orTop⟩

/-- Whether a placeholder is directly followed by blanks and a backtick-quoted name. -/
def placeholderBeforeQuotedName (t : List Char) : Bool :=
  match t with
  | [] => false
  | '?' :: rest =>
    let afterBlank := rest.dropWhile Text.isBlank
    let quoted := match afterBlank with
      | '`' :: r =>
        let name := r.takeWhile (· != '`')
        !name.isEmpty && (r.drop name.length).head? == some '`'
      | _ => false
    (afterBlank.length < rest.length && quoted) || placeholderBeforeQuotedName rest
  | _ :: rest => placeholderBeforeQuotedName rest

/-- The checks on a whole clause. -/
def sanityCheck (c : BoundClause) : Except GuardError Unit :=
  let opening := c.text.toList.count '('
  let closing := c.text.toList.count ')'
  if opening != closing then
    .error (.malformed (toString opening ++ " opening vs " ++ toString closing ++ " closing parentheses"))
  else if placeholderBeforeQuotedName c.text.toList then
    .error (.malformed "placeholder directly followed by an escaped identifier")
  else if c.placeholderCount != c.params.length then
    .error (.malformed (toString c.placeholderCount ++ " placeholders for " ++ toString c.params.length ++
      " parameters"))
  else .ok ()

/-- Binds a row filter at the clock's time. -/
def ofFilter (clock : Stamp) (filter : RowFilter) : Except GuardError BoundClause := do
  let parts := filter.parts
  if parts.isEmpty then return empty
  let several := parts.length > 1
  let mut texts : List String := []
  let mut params : List Datum := []
  for part in parts do
    let piece ← ofFragment clock part
    if piece.clause.isEmpty then continue
    texts := texts ++ [if several && piece.topLevelOr then "(" ++ piece.clause.text ++ ")" else piece.clause.text]
    params := params ++ piece.clause.params
  let c : BoundClause := ⟨" AND ".intercalate texts, params⟩
  sanityCheck c
  pure c

/-- Binds one clause text. -/
def ofText (clock : Stamp) (clause : String) : Except GuardError BoundClause :=
  ofFilter clock (.clause clause)

end BoundClause

/-- A datum with a `now`/`current_date` sentinel text replaced by the clock's time. -/
def Datum.normalize (clock : Stamp) : Datum → Datum
  | .text s => .text ((Stamp.sentinel clock s).getD s)
  | d => d

end QueryShield
