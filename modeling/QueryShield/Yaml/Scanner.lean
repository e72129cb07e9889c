import QueryShield.Yaml.Syntax

/-!
# YAML: the scanner

The scanner reads characters and writes tokens.  Indentation is explicit in the token
stream: when a line starts a block sequence or a block mapping at a deeper column, a start
token is written, and when a line returns to a shallower column, one end token is written
per closed block.  A scalar may turn out to be a key only when a `:` follows it on the same
line, so the scanner remembers, per level of flow brackets, where such a key could start,
and writes the key token (and the block start) there when the `:` comes.

Scalars are plain (ended by `: `, ` #` or the end of the line, and folded over continuation
lines that are indented deeper than the block), single-quoted (`''` is a quote),
double-quoted (with backslash escapes), or block scalars (`|` literal, `>` folded).

The scanner stops at the first error.  The tokens it wrote before the error are handed on
only up to the first place where a key could still be inserted, as a reader that pulls
tokens one at a time would see them.
-/

namespace QueryShield
namespace Yaml

/-- Whether a character ends a line. -/
def isBreak (c : Char) : Bool :=
  c == '\r' || c == '\n' || c == '\u0085' || c == '\u2028' || c == '\u2029'

/-- Whether a character is a space or a tab. -/
def isBlank (c : Char) : Bool := c == ' ' || c == '\t'

/-- Whether a character is a blank or a line break, or the text has ended. -/
def blankOrEnd : Option Char → Bool
  | none => true
  | some c => isBlank c || isBreak c

/-- A place where a key without `?` may start. -/
structure SimpleKey where
  possible : Bool := false
  required : Bool := false
  tokenNumber : Nat := 0
  mark : Mark := {}

/-- The scanner's state. -/
structure Scanner where
  rest : List Char
  mark : Mark := {}
  tokens : Array Token := #[]
  indent : Int := -1
  indents : List Int := []
  flowLevel : Nat := 0
  simpleKeyAllowed : Bool := true
  simpleKeys : List SimpleKey := [{}]
  finished : Bool := false

/-- A scanning step. -/
abbrev Scan := EStateM SyntaxError Scanner

namespace Scan

/-- The character `k` places ahead. -/
def charAt (k : Nat) : Scan (Option Char) := fun s => .ok (s.rest.drop k).head? s

/-- The current character. -/
def current : Scan (Option Char) := charAt 0

/-- The current position. -/
def here : Scan Mark := fun s => .ok s.mark s

/-- Fails at the current position. -/
def fail {α : Type} (problem : String) (context : Option (String × Mark) := none) : Scan α :=
  fun s => .error { problem, problemMark := s.mark, context } s

/-- Steps over one character that is not a line break. -/
def skip : Scan Unit := modify fun s =>
  match s.rest with
  | [] => s
  | _ :: r => { s with rest := r, mark := { s.mark with index := s.mark.index + 1,
                                                        column := s.mark.column + 1 } }

/-- Steps over a line break (`\r\n` counts as one). -/
def skipLine : Scan Unit := modify fun s =>
  match s.rest with
  | '\r' :: '\n' :: r => { s with rest := r, mark := ⟨s.mark.index + 2, s.mark.line + 1, 0⟩ }
  | c :: r =>
    if isBreak c then { s with rest := r, mark := ⟨s.mark.index + 1, s.mark.line + 1, 0⟩ } else s
  | [] => s

/-- Reads a line break: `\n` for the usual breaks, the separator itself for the line and
paragraph separators. -/
def readLine : Scan String := do
  match ← current with
  | some c =>
    skipLine
    pure (if c == '\u2028' || c == '\u2029' then String.singleton c else "\n")
  | none => pure ""

/-- Reads one character. -/
def read : Scan String := do
  match ← current with
  | some c => skip; pure (String.singleton c)
  | none => pure ""

/-- Whether the text continues with `word`. -/
def lookingAt (word : List Char) : Scan Bool := fun s => .ok (word.isPrefixOf s.rest) s

/-- Whether a document marker (`---` or `...` and a blank) stands at the start of a line. -/
def atDocumentMarker : Scan Bool := do
  let s ← get
  if s.mark.column != 0 then return false
  let dashes ← lookingAt ['-', '-', '-']
  let dots ← lookingAt ['.', '.', '.']
  return (dashes || dots) && blankOrEnd (← charAt 3)

/-- Writes a token at the end. -/
def emit (kind : TokenKind) (start stop : Mark) : Scan Unit :=
  modify fun s => { s with tokens := s.tokens.push ⟨kind, start, stop⟩ }

/-- Writes a token at a given place among those written. -/
def insertAt (n : Nat) (t : Token) : Scan Unit :=
  modify fun s => { s with tokens := (s.tokens.extract 0 n).push t ++ s.tokens.extract n s.tokens.size }

/-- The key place of the innermost level. -/
def currentKey : Scan SimpleKey := fun s => .ok (s.simpleKeys.headD {}) s

/-- Replaces the key place of the innermost level. -/
def setCurrentKey (k : SimpleKey) : Scan Unit := modify fun s =>
  { s with simpleKeys := match s.simpleKeys with
    | [] => [k]
    | _ :: r => k :: r }

/-- Sets whether a key may start here. -/
def allowKey (b : Bool) : Scan Unit := modify fun s => { s with simpleKeyAllowed := b }

/-- Forgets the key place of the innermost level; a key that had to come is an error. -/
def removeSimpleKey : Scan Unit := do
  let k ← currentKey
  if k.possible && k.required then
    fail "could not find expected ':'" (some ("while scanning a simple key", k.mark))
  setCurrentKey { k with possible := false }

/-- Remembers that a key may start here. -/
def saveSimpleKey : Scan Unit := do
  let s ← get
  let required := s.flowLevel == 0 && s.indent == (s.mark.column : Int)
  if s.simpleKeyAllowed then
    removeSimpleKey
    let s ← get
    setCurrentKey { possible := true, required, tokenNumber := s.tokens.size, mark := s.mark }

/-- Forgets key places that can no longer be keys: a key ends on its own line and within
1024 characters. -/
def staleSimpleKeys : Scan Unit := do
  let s ← get
  let stale (k : SimpleKey) : Bool :=
    k.possible && (k.mark.line < s.mark.line || k.mark.index + 1024 < s.mark.index)
  match s.simpleKeys.reverse.find? fun k => stale k && k.required with
  | some k => fail "could not find expected ':'" (some ("while scanning a simple key", k.mark))
  | none =>
    set { s with simpleKeys := s.simpleKeys.map fun k => if stale k then { k with possible := false } else k }

/-- Opens a level of flow brackets. -/
def increaseFlowLevel : Scan Unit := modify fun s =>
  { s with simpleKeys := {} :: s.simpleKeys, flowLevel := s.flowLevel + 1 }

/-- Closes a level of flow brackets. -/
def decreaseFlowLevel : Scan Unit := modify fun s =>
  if s.flowLevel > 0 then { s with simpleKeys := s.simpleKeys.drop 1, flowLevel := s.flowLevel - 1 }
  else s

/-- Opens a block at a deeper column, writing its start token (at `number` if given). -/
def rollIndent (column : Int) (number : Option Nat) (kind : TokenKind) (mark : Mark) : Scan Unit := do
  let s ← get
  if s.flowLevel > 0 then return
  if s.indent < column then
    set { s with indents := s.indent :: s.indents, indent := column }
    match number with
    | none => emit kind mark mark
    | some n => insertAt n ⟨kind, mark, mark⟩

/-- Closes the blocks deeper than `column`, one end token each. -/
def unrollIndent (column : Int) : Scan Unit := do
  let s ← get
  if s.flowLevel > 0 then return
  let rec close : List Int → Int → Nat → (List Int × Int × Nat)
    | rest, indent, n =>
      if indent > column then
        match rest with
        | i :: more => close more i (n + 1)
        | [] => (rest, -1, n + 1)
      else (rest, indent, n)
  let (indents, indent, n) := close s.indents s.indent 0
  set { s with indents, indent,
               tokens := s.tokens ++ (List.replicate n (⟨.blockEnd, s.mark, s.mark⟩ : Token)).toArray }

/-- Steps over blanks, comments and line breaks up to the next token. -/
def toNextToken : Nat → Scan Unit
  | 0 => pure ()
  | fuel + 1 => do
    let s ← get
    match s.rest with
    | c :: _ =>
      if c == ' ' || (c == '\t' && (s.flowLevel > 0 || !s.simpleKeyAllowed)) || c == '\uFEFF' then
        skip; toNextToken fuel
      else if c == '#' then
        modify fun s =>
          let comment := s.rest.takeWhile fun c => !isBreak c
          { s with rest := s.rest.drop comment.length,
                   mark := { s.mark with index := s.mark.index + comment.length,
                                         column := s.mark.column + comment.length } }
        toNextToken fuel
      else if isBreak c then
        skipLine
        if s.flowLevel == 0 then allowKey true
        toNextToken fuel
      else pure ()
    | [] => pure ()

/-! ## Scalars -/

/-- The text of folded line breaks: a single `\n` becomes a space, more breaks stay. -/
def fold (leadingBreak trailingBreaks : String) : String :=
  if leadingBreak == "\n" then (if trailingBreaks.isEmpty then " " else trailingBreaks)
  else leadingBreak ++ trailingBreaks

/-- What a scalar being read keeps between its pieces. -/
structure Pending where
  text : String := ""
  whitespaces : String := ""
  leadingBreak : String := ""
  trailingBreaks : String := ""
  leadingBlanks : Bool := false

/-- Joins the blanks or breaks kept since the last piece onto the text. -/
def Pending.join (p : Pending) : Pending :=
  if p.leadingBlanks then
    { p with text := p.text ++ fold p.leadingBreak p.trailingBreaks, leadingBreak := "",
             trailingBreaks := "", leadingBlanks := false }
  else { p with text := p.text ++ p.whitespaces, whitespaces := "" }

/-- Consumes blanks and line breaks after a piece of a scalar.  With `tabLimit = some
(indent, start)`, a tab before column `indent` on a continuation line is an error. -/
def scalarBlanks (tabLimit : Option (Int × Mark)) : Nat → Pending → Scan Pending
  | 0, p => pure p
  | fuel + 1, p => do
    match ← current with
    | some c =>
      if isBlank c then
        if let some (indent, start) := tabLimit then
          if p.leadingBlanks && ((← here).column : Int) < indent && c == '\t' then
            fail "found a tab character that violates indentation"
              (some ("while scanning a plain scalar", start))
        if p.leadingBlanks then skip; scalarBlanks tabLimit fuel p
        else
          let w ← read
          scalarBlanks tabLimit fuel { p with whitespaces := p.whitespaces ++ w }
      else if isBreak c then
        let b ← readLine
        if p.leadingBlanks then scalarBlanks tabLimit fuel { p with trailingBreaks := p.trailingBreaks ++ b }
        else scalarBlanks tabLimit fuel { p with whitespaces := "", leadingBreak := b, leadingBlanks := true }
      else pure p
    | none => pure p

/-- Reads the characters of one line piece of a plain scalar. -/
def plainPiece (inFlow : Bool) : Nat → Pending → Mark → Scan (Pending × Mark)
  | 0, p, stop => pure (p, stop)
  | fuel + 1, p, stop => do
    let c? ← current
    if blankOrEnd c? then return (p, stop)
    let c := c?.getD ' '
    let next ← charAt 1
    let flowStop := match next with
      | some n => ",?[]\x7b\x7d".toList.contains n
      | none => false
    if inFlow && c == ':' && flowStop then return (p, stop)
    if (c == ':' && blankOrEnd next) || (inFlow && ",[]\x7b\x7d".toList.contains c) then return (p, stop)
    let p := if p.leadingBlanks || !p.whitespaces.isEmpty then p.join else p
    let ch ← read
    plainPiece inFlow fuel { p with text := p.text ++ ch } (← here)

/-- The lines of a plain scalar: pieces separated by blanks and breaks, while the next
line is indented deeper than the block (or the scalar is inside brackets). -/
def plainLines (inFlow : Bool) (indent : Int) (start : Mark) (fuel : Nat) :
    Nat → Pending → Mark → Scan (Pending × Mark)
  | 0, p, stop => pure (p, stop)
  | lines + 1, p, stop => do
    if ← atDocumentMarker then return (p, stop)
    if (← current) == some '#' then return (p, stop)
    let (p, stop) ← plainPiece inFlow fuel p stop
    match ← current with
    | some c =>
      if !(isBlank c || isBreak c) then return (p, stop)
      let p ← scalarBlanks (some (indent, start)) fuel p
      if !inFlow && ((← here).column : Int) < indent then return (p, stop)
      plainLines inFlow indent start fuel lines p stop
    | none => return (p, stop)

/-- Reads a plain scalar and writes its token; tells whether it ended after a line break. -/
def plainScalar : Scan Bool := do
  let start ← here
  let s ← get
  let fuel := s.rest.length + 1
  let (p, stop) ← plainLines (s.flowLevel > 0) (s.indent + 1) start fuel fuel {} start
  emit (.scalar p.text .plain) start stop
  return p.leadingBlanks

/-- The character of a one-letter escape in a double-quoted scalar. -/
def simpleEscape : Char → Option String
  | '0' => some (String.singleton (Char.ofNat 0))
  | 'a' => some (String.singleton (Char.ofNat 7))
  | 'b' => some (String.singleton (Char.ofNat 8))
  | 't' => some "\t"
  | '\t' => some "\t"
  | 'n' => some "\n"
  | 'v' => some (String.singleton (Char.ofNat 11))
  | 'f' => some (String.singleton (Char.ofNat 12))
  | 'r' => some "\r"
  | 'e' => some (String.singleton (Char.ofNat 27))
  | ' ' => some " "
  | '"' => some "\""
  | '/' => some "/"
  | '\'' => some "\'"
  | '\\' => some "\\"
  | 'N' => some "\u0085"
  | '_' => some "\u00A0"
  | 'L' => some "\u2028"
  | 'P' => some "\u2029"
  | _ => none

/-- The value of a hexadecimal digit. -/
def hexValue (c : Char) : Option Nat :=
  if '0' ≤ c && c ≤ '9' then some (c.toNat - '0'.toNat)
  else if 'a' ≤ c && c ≤ 'f' then some (c.toNat - 'a'.toNat + 10)
  else if 'A' ≤ c && c ≤ 'F' then some (c.toNat - 'A'.toNat + 10)
  else none

/-- Reads `n` hexadecimal digits of an escape. -/
def hexDigits (start : Mark) : Nat → Nat → Scan Nat
  | 0, acc => pure acc
  | n + 1, acc => do
    match (← current).bind hexValue with
    | some d => skip; hexDigits start n (acc * 16 + d)
    | none => fail "did not find expected hexdecimal number" (some ("while parsing a quoted scalar", start))

/-- Reads the characters of one line piece of a quoted scalar, up to a blank, a break, the
closing quote or the end; an escaped line break ends the piece with leading blanks set. -/
def quotedPiece (single : Bool) (start : Mark) : Nat → Pending → Scan Pending
  | 0, p => pure p
  | fuel + 1, p => do
    let c? ← current
    if blankOrEnd c? then return p
    let c := c?.getD ' '
    let next ← charAt 1
    if single && c == '\'' && next == some '\'' then
      skip; skip; quotedPiece single start fuel { p with text := p.text ++ "\'" }
    else if c == (if single then '\'' else '"') then return p
    else if !single && c == '\\' && (match next with | some n => isBreak n | none => false) then
      skip; skipLine
      return { p with leadingBlanks := true }
    else if !single && c == '\\' then
      let e := next.getD ' '
      let width := if e == 'x' then 2 else if e == 'u' then 4 else if e == 'U' then 8 else 0
      if width == 0 then
        match simpleEscape e with
        | some t => skip; skip; quotedPiece single start fuel { p with text := p.text ++ t }
        | none => fail "found unknown escape character" (some ("while parsing a quoted scalar", start))
      else
        skip; skip
        let v ← hexDigits start width 0
        if (0xD800 ≤ v && v ≤ 0xDFFF) || v > 0x10FFFF then
          fail "found invalid Unicode character escape code" (some ("while parsing a quoted scalar", start))
        quotedPiece single start fuel { p with text := p.text ++ String.singleton (Char.ofNat v) }
    else
      let ch ← read
      quotedPiece single start fuel { p with text := p.text ++ ch }

/-- The pieces of a quoted scalar up to its closing quote. -/
def quotedLines (single : Bool) (start : Mark) (fuel : Nat) : Nat → Pending → Scan Pending
  | 0, p => pure p
  | lines + 1, p => do
    if ← atDocumentMarker then
      fail "found unexpected document indicator" (some ("while scanning a quoted scalar", start))
    if (← current).isNone then
      fail "found unexpected end of stream" (some ("while scanning a quoted scalar", start))
    let p ← quotedPiece single start fuel { p with leadingBlanks := false }
    if (← current) == some (if single then '\'' else '"') then return p
    let p ← scalarBlanks none fuel p
    quotedLines single start fuel lines p.join

/-- Reads a quoted scalar and writes its token. -/
def quotedScalar (single : Bool) : Scan Unit := do
  let start ← here
  skip
  let fuel := (← get).rest.length + 1
  let p ← quotedLines single start fuel fuel {}
  skip
  emit (.scalar p.text (if single then .singleQuoted else .doubleQuoted)) start (← here)

/-- Consumes the indentation and empty lines before a line of a block scalar; fixes the
indentation from the deepest such line when it is not known yet. -/
def blockBreaks (start : Mark) (indent : Nat) (breaks : String) (stop : Mark) :
    Nat → Nat → Scan (Nat × String × Mark)
  | 0, _ => pure (indent, breaks, stop)
  | fuel + 1, deepest => do
    let rec spaces : Nat → Scan Unit
      | 0 => pure ()
      | k + 1 => do
        if (indent == 0 || (← here).column < indent) && (← current) == some ' ' then
          skip; spaces k
    spaces ((← get).rest.length + 1)
    let col := (← here).column
    let deepest := max deepest col
    if (indent == 0 || col < indent) && (← current) == some '\t' then
      fail "found a tab character where an indentation space is expected"
        (some ("while scanning a block scalar", start))
    match ← current with
    | some c =>
      if isBreak c then
        let b ← readLine
        blockBreaks start indent (breaks ++ b) (← here) fuel deepest
      else finish deepest breaks stop
    | none => finish deepest breaks stop
where
  finish (deepest : Nat) (breaks : String) (stop : Mark) : Scan (Nat × String × Mark) := do
    if indent != 0 then return (indent, breaks, stop)
    let s ← get
    let base : Int := s.indent + 1
    let chosen : Int := max (max (deepest : Int) base) 1
    return (chosen.toNat, breaks, stop)

/-- The content lines of a block scalar at its indentation. -/
def blockLines (literal : Bool) (start : Mark) (indent : Nat) (fuel : Nat) :
    Nat → String → String → String → Bool → Mark → Scan (String × String × String × Mark)
  | 0, text, leading, trailing, _, stop => pure (text, leading, trailing, stop)
  | lines + 1, text, leading, trailing, leadingBlank, stop => do
    if (← here).column != indent || (← current).isNone then
      return (text, leading, trailing, stop)
    let trailingBlank := match ← current with
      | some c => isBlank c
      | none => false
    let text :=
      if !literal && leading == "\n" && !leadingBlank && !trailingBlank then
        (if trailing.isEmpty then text ++ " " else text)
      else text ++ leading
    let text := text ++ trailing
    let leadingBlank := match ← current with
      | some c => isBlank c
      | none => false
    let line := (← get).rest.takeWhile fun c => !isBreak c
    modify fun s => { s with rest := s.rest.drop line.length,
                             mark := { s.mark with index := s.mark.index + line.length,
                                                   column := s.mark.column + line.length } }
    let leading ← readLine
    let (_, trailing, stop) ← blockBreaks start indent "" stop fuel 0
    blockLines literal start indent fuel lines (text ++ String.ofList line) leading trailing leadingBlank stop

/-- Reads a block scalar (`|` literal or `>` folded) and writes its token. -/
def blockScalar (literal : Bool) : Scan Unit := do
  let start ← here
  skip
  let mut chomping : Int := 0
  let mut increment : Nat := 0
  let ctx := some ("while scanning a block scalar", start)
  let c ← current
  if c == some '+' || c == some '-' then
    chomping := if c == some '+' then 1 else -1
    skip
    if let some d := (← current).bind fun d => if d.isDigit then some d else none then
      if d == '0' then fail "found an indentation indicator equal to 0" ctx
      increment := d.toNat - '0'.toNat
      skip
  else if let some d := c.bind fun d => if d.isDigit then some d else none then
    if d == '0' then fail "found an indentation indicator equal to 0" ctx
    increment := d.toNat - '0'.toNat
    skip
    let c ← current
    if c == some '+' || c == some '-' then
      chomping := if c == some '+' then 1 else -1
      skip
  let rec blanks : Nat → Scan Unit
    | 0 => pure ()
    | k + 1 => do if (← current).any isBlank then skip; blanks k
  blanks ((← get).rest.length + 1)
  if (← current) == some '#' then
    modify fun s =>
      let comment := s.rest.takeWhile fun c => !isBreak c
      { s with rest := s.rest.drop comment.length,
               mark := { s.mark with index := s.mark.index + comment.length,
                                     column := s.mark.column + comment.length } }
  match ← current with
  | some c => if !isBreak c then fail "did not find expected comment or line break" ctx
  | none => pure ()
  if (← current).any isBreak then skipLine
  let stop ← here
  let s ← get
  let indent : Nat :=
    if increment == 0 then 0
    else if s.indent ≥ 0 then (s.indent + increment).toNat else increment
  let fuel := s.rest.length + 1
  let (indent, trailing, stop) ← blockBreaks start indent "" stop fuel 0
  let (text, leading, trailing, stop) ← blockLines literal start indent fuel fuel "" "" trailing false stop
  let text := if chomping != -1 then text ++ leading else text
  let text := if chomping == 1 then text ++ trailing else text
  emit (.scalar text (if literal then .literal else .folded)) start stop

/-! ## Tokens -/

/-- Writes a one-character token. -/
def single (kind : TokenKind) : Scan Unit := do
  let start ← here
  skip
  emit kind start (← here)

/-- Ends the stream: closes every block and writes the end token on a fresh line. -/
def streamEnd : Scan Unit := do
  modify fun s => if s.mark.column != 0 then { s with mark := { s.mark with column := 0, line := s.mark.line + 1 } } else s
  unrollIndent (-1)
  removeSimpleKey
  allowKey false
  let m ← here
  emit .streamEnd m m
  modify fun s => { s with finished := true }

/-- A `---` or `...` marker. -/
def documentIndicator (kind : TokenKind) : Scan Unit := do
  unrollIndent (-1)
  removeSimpleKey
  allowKey false
  let start ← here
  skip; skip; skip
  emit kind start (← here)

/-- An opening bracket. -/
def flowStart (kind : TokenKind) : Scan Unit := do
  saveSimpleKey
  increaseFlowLevel
  allowKey true
  single kind

/-- A closing bracket. -/
def flowEnd (kind : TokenKind) : Scan Unit := do
  removeSimpleKey
  decreaseFlowLevel
  allowKey false
  single kind

/-- A comma between flow entries. -/
def flowEntry : Scan Unit := do
  removeSimpleKey
  allowKey true
  single .flowEntry

/-- A `-` entry of a block sequence. -/
def blockEntry : Scan Unit := do
  let s ← get
  if s.flowLevel == 0 then
    if !s.simpleKeyAllowed then fail "block sequence entries are not allowed in this context"
    rollIndent s.mark.column none .blockSequenceStart s.mark
  removeSimpleKey
  allowKey true
  single .blockEntry

/-- A `?` key indicator. -/
def explicitKey : Scan Unit := do
  let s ← get
  if s.flowLevel == 0 then
    if !s.simpleKeyAllowed then fail "mapping keys are not allowed in this context"
    rollIndent s.mark.column none .blockMappingStart s.mark
  removeSimpleKey
  allowKey ((← get).flowLevel == 0)
  single .key

/-- A `:` value indicator; writes the key token where the key started, if one could. -/
def valueIndicator : Scan Unit := do
  let k ← currentKey
  if k.possible then
    insertAt k.tokenNumber ⟨.key, k.mark, k.mark⟩
    rollIndent k.mark.column (some k.tokenNumber) .blockMappingStart k.mark
    setCurrentKey { k with possible := false }
    allowKey false
  else
    let s ← get
    if s.flowLevel == 0 then
      if !s.simpleKeyAllowed then fail "mapping values are not allowed in this context"
      rollIndent s.mark.column none .blockMappingStart s.mark
    allowKey ((← get).flowLevel == 0)
  single .value

/-- Whether a character may start a plain scalar here. -/
def startsPlain (c : Char) (next : Option Char) (inFlow : Bool) : Bool :=
  !(blankOrEnd (some c) || "-?:,[]\x7b\x7d#&*!|>'\"%@".toList.contains c || c == Char.ofNat 96) ||
    (c == '-' && !(next.any isBlank)) ||
    (!inFlow && (c == '?' || c == ':') && !blankOrEnd next)

/-- Scans the next token (or several, when blocks close). -/
def fetch : Scan Unit := do
  toNextToken ((← get).rest.length + 1)
  staleSimpleKeys
  unrollIndent (← here).column
  let s ← get
  match s.rest with
  | [] => streamEnd
  | c :: _ =>
    let next ← charAt 1
    let inFlow := s.flowLevel > 0
    if ← atDocumentMarker then
      documentIndicator (if c == '-' then .documentStart else .documentEnd)
    else if c == '[' then flowStart .flowSequenceStart
    else if c == '\x7b' then flowStart .flowMappingStart
    else if c == ']' then flowEnd .flowSequenceEnd
    else if c == '\x7d' then flowEnd .flowMappingEnd
    else if c == ',' then flowEntry
    else if c == '-' && blankOrEnd next then blockEntry
    else if c == '?' && (inFlow || blankOrEnd next) then explicitKey
    else if c == ':' && (inFlow || blankOrEnd next) then valueIndicator
    else if c == '|' && !inFlow then
      removeSimpleKey; allowKey true; blockScalar true
    else if c == '>' && !inFlow then
      removeSimpleKey; allowKey true; blockScalar false
    else if c == '\'' then
      saveSimpleKey; allowKey false; quotedScalar true
    else if c == '"' then
      saveSimpleKey; allowKey false; quotedScalar false
    else if startsPlain c next inFlow then
      saveSimpleKey
      allowKey false
      if ← plainScalar then allowKey true
    else
      fail "found character that cannot start any token"
        (some ("while scanning for the next token", s.mark))

/-- Scans until the stream ends or an error stops it. -/
def loop : Nat → Scan Unit
  | 0 => pure ()
  | fuel + 1 => do
    if (← get).finished then return
    fetch
    loop fuel

end Scan

/-- What the scanner hands on: the tokens, and, if it stopped at an error, the error and how
many of the tokens come before it. -/
structure Scanned where
  tokens : Array Token
  failure : Option (SyntaxError × Nat) := none

/-- Scans a whole text. -/
def scan (text : String) : Scanned :=
  let start : Scanner := { rest := text.toList, tokens := #[⟨.streamStart, {}, {}⟩] }
  match EStateM.run (Scan.loop (text.length + 2)) start with
  | .ok _ s => { tokens := s.tokens }
  | .error e s =>
    let pending := s.simpleKeys.filterMap fun k => if k.possible then some k.tokenNumber else none
    let released := pending.foldl min s.tokens.size
    { tokens := s.tokens, failure := some (e, released) }

end Yaml
end QueryShield
