import QueryShield.Toml.Lexer

/-!
# TOML: reading a document

A document is a sequence of lines: blank, a comment, a key and its value, or a table header
(`[a.b]`, or `[[a.b]]` for the next table of an array of tables).  Keys are bare (letters,
digits, `-`, `_`) or quoted, and joined by dots.  Values are strings (basic, literal, and
their multi-line forms), integers (decimal, or `0x`, `0o`, `0b`, with single underscores
between digits), floats, booleans, dates and times, arrays and inline tables.

The rules on tables: a table is named by a header at most once; a key is given at most once; a
table named by a header cannot be extended by a dotted key, and one made by dotted keys cannot
be named by a header; an inline table is closed.  The first failure is reported.
-/

namespace QueryShield
namespace Toml

/-- The entries of a table. -/
abbrev Entries := List (String × Span × Value × Span)

/-- A step of reading: the tokens, and the position among them. -/
abbrev Step := ReaderT (Array Token) (StateT Nat (Except Fault))

/-- The next token. -/
def peek : Step (Option Token) := do return (← read)[← get]?

/-- Moves past the next token. -/
def advance : Step Unit := modify (· + 1)

/-- Fails with a message at a span. -/
def failAt {α : Type} (message : String) (span : Span) : Step α := throw ⟨message, some span⟩

/-- The empty span at the end of the text. -/
def endSpan : Step Span := do
  match (← read).back? with
  | some t => pure t.span.after
  | none => pure ⟨0, 0⟩

/-- The empty span where the next token starts. -/
def hereSpan : Step Span := do
  match ← peek with
  | some t => pure t.span.before
  | none => endSpan

/-- Skips blanks. -/
def skipBlanks : Nat → Step Unit
  | 0 => pure ()
  | fuel + 1 => do
    match ← peek with
    | some t => if t.kind == .blank then do advance; skipBlanks fuel else pure ()
    | none => pure ()

/-- Skips blanks, line ends and comments. -/
def skipSpace : Nat → Step Unit
  | 0 => pure ()
  | fuel + 1 => do
    match ← peek with
    | some t =>
      if t.kind == .blank || t.kind == .newline || t.kind == .comment then do advance; skipSpace fuel
      else pure ()
    | none => pure ()

/-! ## Strings -/

/-- The value of hexadecimal digits. -/
def hexValue (cs : List Char) : Option Nat :=
  cs.foldlM (fun acc c =>
    if '0' ≤ c && c ≤ '9' then some (acc * 16 + (c.toNat - '0'.toNat))
    else if 'a' ≤ c && c ≤ 'f' then some (acc * 16 + (c.toNat - 'a'.toNat + 10))
    else if 'A' ≤ c && c ≤ 'F' then some (acc * 16 + (c.toNat - 'A'.toNat + 10))
    else none) 0

/-- The escapes a basic string knows. -/
def escapesExpected : String := "expected `b`, `f`, `n`, `r`, `t`, `u`, `U`, `\\\\`, `\"`"

/-- One escape after a backslash: the characters it stands for and how many characters after
the backslash it takes, or why it is wrong.  `offset` is the byte offset of the backslash, and
`lines` whether a backslash at a line end joins lines. -/
def escapeOf (lines : Bool) (offset : Nat) (rest : List Char) : Except Fault (List Char × Nat) :=
  let unicode (n : Nat) (more : List Char) : Except Fault (List Char × Nat) :=
    match hexValue (more.take n) with
    | some v =>
      if more.length < n then .error ⟨"invalid unicode escape, expected hexadecimal digits", some ⟨offset, offset⟩⟩
      else if v < 0xD800 || (0xDFFF < v && v < 0x110000) then .ok ([Char.ofNat v], n + 1)
      else .error ⟨"invalid unicode escape, expected unicode scalar value", some ⟨offset, offset + 2 + n⟩⟩
    | none => .error ⟨"invalid unicode escape, expected hexadecimal digits", some ⟨offset + 2, offset + 2⟩⟩
  match rest with
  | 'b' :: _ => .ok (['\x08'], 1)
  | 't' :: _ => .ok (['\t'], 1)
  | 'n' :: _ => .ok (['\n'], 1)
  | 'f' :: _ => .ok (['\x0c'], 1)
  | 'r' :: _ => .ok (['\r'], 1)
  | '"' :: _ => .ok (['"'], 1)
  | '\\' :: _ => .ok (['\\'], 1)
  | 'u' :: more => unicode 4 more
  | 'U' :: more => unicode 8 more
  | more =>
    let blank := more.takeWhile fun c => c == ' ' || c == '\t'
    let after := more.drop blank.length
    if lines && (after.head? == some '\n' || after.take 2 == ['\r', '\n']) then
      let skipped := after.takeWhile fun c => c == ' ' || c == '\t' || c == '\n' || c == '\r'
      .ok ([], blank.length + skipped.length)
    else .error ⟨"missing escaped value, " ++ escapesExpected, some ⟨offset + 1, offset + 1⟩⟩

/-- Decodes the escapes of a basic string's body; `offset` is the byte offset of the body. -/
def unescape (lines : Bool) (offset : Nat) (cs : List Char) : Except Fault (List Char) :=
  match cs with
  | [] => .ok []
  | c :: rest =>
    if c == '\\' then
      match escapeOf lines offset rest with
      | .error e => .error e
      | .ok (out, used) =>
        match unescape lines (offset + 1 + Utf8.size (rest.take used)) (rest.drop used) with
        | .ok tail => .ok (out ++ tail)
        | .error e => .error e
    else
      match unescape lines (offset + c.utf8Size) rest with
      | .ok tail => .ok (c :: tail)
      | .error e => .error e
termination_by cs.length
decreasing_by all_goals (simp only [List.length_drop, List.length_cons]; omega)

/-- Drops one line end at the start of a multi-line string. -/
def dropFirstLineEnd : List Char → List Char
  | '\n' :: rest => rest
  | '\r' :: '\n' :: rest => rest
  | cs => cs

/-- The text of a string token. -/
def stringOf (t : Token) : Except Fault String := do
  let cs := t.text.toList
  let n := cs.length
  let bodyOf (k : Nat) : List Char := (cs.drop k).take (n - 2 * k)
  match t.kind with
  | .basic =>
    if n < 2 || cs.getLast? != some '"' then
      throw ⟨"invalid basic string, expected `\"`", some t.span.after⟩
    String.ofList <$> unescape false (t.span.start + 1) (bodyOf 1)
  | .literal =>
    if n < 2 || cs.getLast? != some '\'' then
      throw ⟨"invalid literal string, expected `'`", some t.span.after⟩
    pure (String.ofList (bodyOf 1))
  | .basicLines =>
    if n < 6 || cs.drop (n - 3) != ['"', '"', '"'] then
      throw ⟨"invalid multi-line basic string, expected `\"\"\"`", some t.span.after⟩
    let body := bodyOf 3
    let trimmed := dropFirstLineEnd body
    let skipped := Utf8.size (body.take (body.length - trimmed.length))
    String.ofList <$> unescape true (t.span.start + 3 + skipped) trimmed
  | .literalLines =>
    if n < 6 || cs.drop (n - 3) != ['\'', '\'', '\''] then
      throw ⟨"invalid multi-line literal string, expected `'''`", some t.span.after⟩
    pure (String.ofList (dropFirstLineEnd (bodyOf 3)))
  | _ => throw ⟨"invalid string", some t.span⟩

/-! ## Scalars -/

/-- Digits in a radix with single underscores between them. -/
def underscored (radix : Nat) (cs : List Char) : Option Nat :=
  let groups := cs.splitOn '_'
  if cs.isEmpty || groups.any (·.isEmpty) then none
  else (cs.filter (· != '_')).foldlM (fun acc c =>
    let d := if '0' ≤ c && c ≤ '9' then c.toNat - '0'.toNat
      else if 'a' ≤ c && c ≤ 'f' then c.toNat - 'a'.toNat + 10
      else if 'A' ≤ c && c ≤ 'F' then c.toNat - 'A'.toNat + 10
      else 99
    if d < radix then some (acc * radix + d) else none) 0

/-- A decimal integer: an optional sign, and no leading zero. -/
def decimalInteger (cs : List Char) : Option Int :=
  let (neg, body) := match cs with
    | '-' :: r => (true, r)
    | '+' :: r => (false, r)
    | r => (false, r)
  match body with
  | '0' :: _ :: _ => none
  | _ => (underscored 10 body).map fun n => if neg then -(n : Int) else n

/-- An integer in any of its forms. -/
def integerOf (cs : List Char) : Option Int :=
  match cs with
  | '0' :: 'x' :: r => (underscored 16 r).map Int.ofNat
  | '0' :: 'o' :: r => (underscored 8 r).map Int.ofNat
  | '0' :: 'b' :: r => (underscored 2 r).map Int.ofNat
  | _ => decimalInteger cs

/-- A float: an integer part, then a fraction, an exponent or both. -/
def floatOf (cs : List Char) : Option Binary64 :=
  let (neg, body) := match cs with
    | '-' :: r => (true, r)
    | '+' :: r => (false, r)
    | r => (false, r)
  match body with
  | ['i', 'n', 'f'] => some (Binary64.infinity neg)
  | ['n', 'a', 'n'] => some Binary64.nan
  | _ =>
    let whole := body.takeWhile fun (c : Char) => c.isDigit || c == '_'
    let rest := body.drop whole.length
    let (frac, rest) := match rest with
      | '.' :: r => (some (r.takeWhile fun (c : Char) => c.isDigit || c == '_'), r.dropWhile fun (c : Char) => c.isDigit || c == '_')
      | r => (none, r)
    let expo : Option (Option Int) := match rest with
      | [] => some none
      | 'e' :: r | 'E' :: r =>
        let (eneg, ds) := match r with
          | '-' :: d => (true, d)
          | '+' :: d => (false, d)
          | d => (false, d)
        (underscored 10 ds).map fun n => some (if eneg then -(n : Int) else n)
      | _ => none
    match decimalInteger whole, expo with
    | some _, some e =>
      if frac.isNone && e.isNone then none
      else
        let fracDigits := (frac.getD []).filter (· != '_')
        let fracOk := match frac with
          | some f => (underscored 10 f).isSome
          | none => true
        if !fracOk then none
        else
          let digits := (underscored 10 (whole.filter (· != '_') ++ fracDigits)).getD 0
          let x := Binary64.ofDecimal neg digits (e.getD 0 - fracDigits.length)
          some x
    | _, _ => none

/-- Whether a text has the shape of a date, a time, or both. -/
def looksLikeDateTime (cs : List Char) : Bool :=
  let digitsAt (ks : List Nat) : Bool := ks.all fun k => (cs[k]?.map Char.isDigit).getD false
  (digitsAt [0, 1, 2, 3] && cs[4]? == some '-') || (digitsAt [0, 1] && cs[2]? == some ':')

/-- The value of an atom, or why it has none. -/
def scalarOf (text : String) (span : Span) : Except Fault Value :=
  let cs := text.toList
  if text == "true" then .ok (.boolean true)
  else if text == "false" then .ok (.boolean false)
  else if looksLikeDateTime cs then .ok (.datetime text)
  else match integerOf cs with
    | some n => .ok (.integer n)
    | none =>
      match floatOf cs with
      | some x => .ok (.float x)
      | none =>
        let fail (m : String) : Except Fault Value := .error ⟨m, some span⟩
        match cs.head? with
        | some 't' | some 'T' => fail "invalid boolean, expected `true`"
        | some 'f' | some 'F' => fail "invalid boolean, expected `false`"
        | some 'i' | some 'I' => fail "invalid float, expected `inf`"
        | some 'n' | some 'N' => fail "invalid float, expected `nan`"
        | some c =>
          if c.isDigit || c == '+' || c == '-' || c == '_' || c == '.' then
            fail (if cs.contains '.' || cs.contains 'e' || cs.contains 'E' then "invalid float" else "invalid integer")
          else fail "string values must be quoted, expected literal string"
        | none => fail "string values must be quoted, expected literal string"

/-! ## Keys and values -/

/-- Whether a character may appear in a bare key. -/
def bareKeyChar (c : Char) : Bool := c.isAlphanum || c == '-' || c == '_'

/-- One part of a key. -/
def simpleKey : Step (String × Span) := do
  match ← peek with
  | some t =>
    match t.kind with
    | .atom =>
      if t.text.all bareKeyChar then do advance; pure (t.text, t.span)
      else failAt "invalid unquoted key, expected letters, numbers, `-`, `_`" t.span
    | .basic | .literal => do
      advance
      match stringOf t with
      | .ok s => pure (s, t.span)
      | .error e => throw e
    | .basicLines | .literalLines => failAt "multi-line strings are not allowed for keys" t.span
    | _ => failAt "missing key, expected key" t.span.before
  | none => do failAt "missing key, expected key" (← endSpan)

/-- The parts of a dotted key after the first. -/
def keyTail : Nat → List (String × Span) → Step (List (String × Span))
  | 0, acc => pure acc
  | fuel + 1, acc => do
    let save ← get
    skipBlanks fuel
    match ← peek with
    | some t =>
      if t.kind == .dot then do
        advance
        skipBlanks fuel
        let k ← simpleKey
        keyTail fuel (acc ++ [k])
      else do set save; pure acc
    | none => do set save; pure acc

/-- A key, dotted or not. -/
def key (fuel : Nat) : Step (List (String × Span)) := do
  let first ← simpleKey
  keyTail fuel [first]

/-- The atoms of one value joined: a number or date split at dots, or a date and a time
separated by one space. -/
def joinAtoms : Nat → String → Span → Step (String × Span)
  | 0, text, span => pure (text, span)
  | fuel + 1, text, span => do
    let ts ← read
    let i ← get
    match ts[i]?, ts[i + 1]? with
    | some d, some a =>
      if d.kind == .dot && a.kind == .atom then do
        set (i + 2)
        joinAtoms fuel (text ++ "." ++ a.text) (span.join a.span)
      else if d.kind == .blank && d.text == " " && a.kind == .atom && text.length == 10 &&
          looksLikeDateTime text.toList && looksLikeDateTime a.text.toList then do
        set (i + 2)
        joinAtoms fuel (text ++ " " ++ a.text) (span.join a.span)
      else if d.kind == .dot then do
        set (i + 1)
        pure (text ++ ".", span.join d.span)
      else pure (text, span)
    | some d, none =>
      if d.kind == .dot then do set (i + 1); pure (text ++ ".", span.join d.span)
      else pure (text, span)
    | _, _ => pure (text, span)

/-- Adds a value under a dotted key to a table's entries. -/
def insertDotted (entries : Entries) (keys : List (String × Span)) (v : Value) (span : Span)
    (origin : Origin) : Nat → Except Fault Entries
  | 0 => .error ⟨"document is nested too deeply", some span⟩
  | fuel + 1 =>
    match keys with
    | [] => .ok entries
    | [(k, ks)] =>
      if entries.any (·.1 == k) then .error ⟨"duplicate key", some ks⟩
      else .ok (entries ++ [(k, ks, v, span)])
    | (k, ks) :: rest =>
      match entries.find? (·.1 == k) with
      | none => do
        let inner ← insertDotted [] rest v span origin fuel
        pure (entries ++ [(k, ks, .table inner origin, ks)])
      | some (_, kspan, .table inner o, vspan) =>
        if o == .dotted && origin == .dotted || o == .inline && origin == .inline then do
          let inner ← insertDotted inner rest v span origin fuel
          pure (entries.map fun e => if e.1 == k then (k, kspan, .table inner o, vspan) else e)
        else if o == .inline then .error ⟨"cannot extend value of type inline table with a dotted key", some ks⟩
        else .error ⟨"duplicate key", some ks⟩
      | some (_, _, other, _) =>
        .error ⟨"cannot extend value of type " ++ other.kindName ++ " with a dotted key", some ks⟩

mutual

/-- A value. -/
def value : Nat → Step (Value × Span)
  | 0 => do failAt "document is nested too deeply" (← hereSpan)
  | fuel + 1 => do
    match ← peek with
    | none => do failAt "missing value, expected value" (← endSpan)
    | some t =>
      match t.kind with
      | .basic | .literal | .basicLines | .literalLines => do
        advance
        match stringOf t with
        | .ok s => pure (.string s, t.span)
        | .error e => throw e
      | .openSquare => do
        advance
        arrayItems fuel t.span []
      | .openCurly => do
        advance
        skipBlanks fuel
        match ← peek with
        | some c => if c.kind == .closeCurly then do advance; pure (.table [] .inline, t.span.join c.span)
                    else inlineEntries fuel t.span []
        | none => inlineEntries fuel t.span []
      | .atom => do
        advance
        let (text, span) ← joinAtoms fuel t.text t.span
        match scalarOf text span with
        | .ok v => pure (v, span)
        | .error e => throw e
      | _ => failAt "missing value, expected value" t.span.before

/-- The items of an array after its opening bracket. -/
def arrayItems : Nat → Span → List (Value × Span) → Step (Value × Span)
  | 0, _, _ => do failAt "document is nested too deeply" (← hereSpan)
  | fuel + 1, start, items => do
    skipSpace fuel
    match ← peek with
    | none => do failAt "unclosed array, expected `]`" (← endSpan)
    | some t =>
      if t.kind == .closeSquare then do advance; pure (.array items false, start.join t.span)
      else do
        let item ← value fuel
        skipSpace fuel
        match ← peek with
        | none => do failAt "unclosed array, expected `]`" (← endSpan)
        | some u =>
          if u.kind == .comma then do advance; arrayItems fuel start (items ++ [item])
          else if u.kind == .closeSquare then do advance; pure (.array (items ++ [item]) false, start.join u.span)
          else failAt "missing comma between array elements, expected `,`" u.span.before

/-- The entries of an inline table after its opening brace. -/
def inlineEntries : Nat → Span → Entries → Step (Value × Span)
  | 0, _, _ => do failAt "document is nested too deeply" (← hereSpan)
  | fuel + 1, start, entries => do
    skipBlanks fuel
    let keys ← key fuel
    skipBlanks fuel
    match ← peek with
    | some t => if t.kind == .equals then advance else failAt "key with no value, expected `=`" t.span.before
    | none => do failAt "key with no value, expected `=`" (← endSpan)
    skipBlanks fuel
    let (v, span) ← value fuel
    let entries ← match insertDotted entries keys v span .inline (keys.length + 1) with
      | .ok e => pure e
      | .error e => throw e
    skipBlanks fuel
    match ← peek with
    | some t =>
      if t.kind == .comma then do advance; inlineEntries fuel start entries
      else if t.kind == .closeCurly then do advance; pure (.table entries .inline, start.join t.span)
      else failAt "unclosed inline table, expected `\x7d`" t.span.before
    | none => do failAt "unclosed inline table, expected `\x7d`" (← endSpan)

end

/-! ## Tables -/

/-- Changes the table at a path of keys below a table's entries, making implicit tables on the
way and entering the last table of an array of tables. -/
def atPath (f : Entries → Except Fault Entries) : Nat → Entries → List (String × Span) → Except Fault Entries
  | 0, _, _ => .error ⟨"document is nested too deeply", none⟩
  | _, entries, [] => f entries
  | fuel + 1, entries, (k, ks) :: rest =>
    match entries.find? (·.1 == k) with
    | none => do
      let inner ← atPath f fuel [] rest
      pure (entries ++ [(k, ks, .table inner .implicit, ks)])
    | some (_, kspan, .table inner o, vspan) =>
      if o == .inline then .error ⟨"cannot extend value of type inline table with a dotted key", some ks⟩
      else do
        let inner ← atPath f fuel inner rest
        pure (entries.map fun e => if e.1 == k then (k, kspan, .table inner o, vspan) else e)
    | some (_, kspan, .array items true, vspan) =>
      match items.getLast? with
      | some (.table inner o, ispan) => do
        let inner ← atPath f fuel inner rest
        let items := items.dropLast ++ [(.table inner o, ispan)]
        pure (entries.map fun e => if e.1 == k then (k, kspan, .array items true, vspan) else e)
      | _ => .error ⟨"duplicate key", some ks⟩
    | some (_, _, other, _) =>
      .error ⟨"cannot extend value of type " ++ other.kindName ++ " with a dotted key", some ks⟩

/-- Opens the table a header names. -/
def openTable (root : Entries) (path : List (String × Span)) (array : Bool) (span : Span) :
    Except Fault Entries :=
  match path.getLast? with
  | none => .ok root
  | some (leaf, ls) =>
    atPath (fun entries =>
      match entries.find? (·.1 == leaf) with
      | none =>
        let v : Value := if array then .array [(.table [] .header, span)] true else .table [] .header
        .ok (entries ++ [(leaf, ls, v, span)])
      | some (_, kspan, .table inner .implicit, _) =>
        if array then .error ⟨"duplicate key", some ls⟩
        else .ok (entries.map fun e => if e.1 == leaf then (leaf, kspan, .table inner .header, span) else e)
      | some (_, kspan, .array items true, vspan) =>
        if array then
          .ok (entries.map fun e =>
            if e.1 == leaf then (leaf, kspan, .array (items ++ [(.table [] .header, span)]) true, vspan) else e)
        else .error ⟨"duplicate key", some ls⟩
      | some _ => .error ⟨"duplicate key", some ls⟩) (path.length + 1) root path.dropLast

/-- Adds a key and value to the table of the current header. -/
def addEntry (root : Entries) (current : List (String × Span)) (keys : List (String × Span))
    (v : Value) (span : Span) : Except Fault Entries :=
  atPath (fun entries => insertDotted entries keys v span .dotted (keys.length + 1))
    (current.length + 1) root current

/-- The end of a line: blanks, a comment, then a line end or the end of the text. -/
def lineEnd (fuel : Nat) : Step Unit := do
  skipBlanks fuel
  match ← peek with
  | none => pure ()
  | some t =>
    if t.kind == .comment then do
      advance
      match ← peek with
      | some u => if u.kind == .newline then advance else pure ()
      | none => pure ()
    else if t.kind == .newline then advance
    else failAt "unexpected key or value, expected newline, `#`" t.span.before

/-- A table header after its opening bracket. -/
def header (fuel : Nat) (root : Entries) (start : Span) : Step (Entries × List (String × Span)) := do
  let array ← do
    match ← peek with
    | some t => if t.kind == .openSquare then do advance; pure true else pure false
    | none => pure false
  skipBlanks fuel
  let keys ← key fuel
  skipBlanks fuel
  let lastKey := (keys.getLast?.map (·.2)).getD start
  match ← peek with
  | some t =>
    if t.kind == .closeSquare then do
      advance
      if array then
        match ← peek with
        | some u =>
          if u.kind == .closeSquare then advance
          else failAt "unclosed array table, expected `]`" t.span.after
        | none => failAt "unclosed array table, expected `]`" t.span.after
    else failAt (if array then "unclosed array table, expected `]]`" else "unclosed table, expected `]`") lastKey.after
  | none => failAt (if array then "unclosed array table, expected `]]`" else "unclosed table, expected `]`") lastKey.after
  let closing ← do
    match (← read)[(← get) - 1]? with
    | some t => pure t.span
    | none => pure start
  match openTable root keys array (start.join closing) with
  | .ok root => do
    lineEnd fuel
    pure (root, keys)
  | .error e => throw e

/-- The lines of a document. -/
def document : Nat → Entries → List (String × Span) → Step Entries
  | 0, root, _ => pure root
  | fuel + 1, root, current => do
    match ← peek with
    | none => pure root
    | some t =>
      match t.kind with
      | .blank | .newline | .comment => do advance; document fuel root current
      | .openSquare => do
        advance
        let (root, current) ← header fuel root t.span
        document fuel root current
      | .atom | .basic | .literal | .basicLines | .literalLines => do
        let keys ← key fuel
        skipBlanks fuel
        match ← peek with
        | some u => if u.kind == .equals then advance else failAt "key with no value, expected `=`" u.span.before
        | none => do failAt "key with no value, expected `=`" (← endSpan)
        skipBlanks fuel
        let (v, span) ← value fuel
        match addEntry root current keys v span with
        | .ok root => do
          lineEnd fuel
          document fuel root current
        | .error e => throw e
      | .equals => failAt "missing key, expected key" t.span.before
      | .closeSquare => failAt "missing table open, expected `[`" t.span
      | _ => failAt "unexpected content, expected key" t.span

/-- Reads a document. -/
def parse (text : String) : Except Fault Entries :=
  let tokens := (tokenize text.toList 0).toArray
  (document (tokens.size + 2) [] [] |>.run tokens |>.run' 0)

end Toml
end QueryShield
