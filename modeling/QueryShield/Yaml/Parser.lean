import QueryShield.Yaml.Scanner

/-!
# YAML: the parser

The parser reads tokens and writes events, one step at a time, as a machine whose state
says what the next token may be (a document, a node, an entry of a block or flow
collection, a key or a value), with a stack of states to return to after a nested node.
Where a node is left out (a key with no value, an empty document) it writes an empty plain
scalar.  It stops at the first error, its own or the scanner's, whichever a reader that
pulls tokens one at a time meets first.
-/

namespace QueryShield
namespace Yaml

/-- What the parser expects next. -/
inductive ParseState where
  | streamStart
  | implicitDocumentStart
  | documentStart
  | documentContent
  | documentEnd
  | blockNode
  | blockNodeOrIndentlessSequence
  | flowNode
  | blockSequenceFirstEntry
  | blockSequenceEntry
  | indentlessSequenceEntry
  | blockMappingFirstKey
  | blockMappingKey
  | blockMappingValue
  | flowSequenceFirstEntry
  | flowSequenceEntry
  | flowSequenceEntryMappingKey
  | flowSequenceEntryMappingValue
  | flowSequenceEntryMappingEnd
  | flowMappingFirstKey
  | flowMappingKey
  | flowMappingValue
  | flowMappingEmptyValue
  | finished
deriving DecidableEq, Repr

/-- The parser's state. -/
structure Parser where
  pos : Nat := 0
  state : ParseState := .streamStart
  states : List ParseState := []
  marks : List Mark := []
  events : Array (Event × Mark) := #[]

/-- A parsing step, reading from scanned tokens. -/
abbrev Parse := ReaderT Scanned (EStateM SyntaxError Parser)

namespace Parse

/-- The next token; the scanner's error once the tokens before it are used up. -/
def peek : Parse Token := do
  let scanned ← read
  let s ← get
  match scanned.failure with
  | some (e, released) => if s.pos < released then pure (scanned.tokens.getD s.pos ⟨.streamEnd, {}, {}⟩) else throw e
  | none => pure (scanned.tokens.getD s.pos ⟨.streamEnd, {}, {}⟩)

/-- Moves past the next token. -/
def advance : Parse Unit := modify fun s => { s with pos := s.pos + 1 }

/-- Writes an event. -/
def emit (e : Event) (m : Mark) : Parse Unit := modify fun s => { s with events := s.events.push (e, m) }

/-- Sets the next state. -/
def goto (st : ParseState) : Parse Unit := modify fun s => { s with state := st }

/-- Pushes a state to return to. -/
def push (st : ParseState) : Parse Unit := modify fun s => { s with states := st :: s.states }

/-- Returns to the last pushed state. -/
def pop : Parse Unit := modify fun s =>
  { s with state := s.states.headD .finished, states := s.states.drop 1 }

/-- Pushes the start of a collection. -/
def pushMark (m : Mark) : Parse Unit := modify fun s => { s with marks := m :: s.marks }

/-- Pops the start of a collection. -/
def popMark : Parse Mark := do
  let s ← get
  set { s with marks := s.marks.drop 1 }
  pure (s.marks.headD {})

/-- Writes an empty plain scalar. -/
def emptyScalar (m : Mark) : Parse Unit := emit (.scalar "" .plain) m

/-- Fails with a problem at a token and a context. -/
def failAt {α : Type} (context : String) (contextMark : Mark) (problem : String) (at_ : Mark) : Parse α :=
  throw { problem, problemMark := at_, context := some (context, contextMark) }

/-- A node: a scalar, or the start of a collection. -/
def node (block indentless : Bool) : Parse Unit := do
  let t ← peek
  match t.kind with
  | .blockEntry =>
    if indentless then
      goto .indentlessSequenceEntry
      emit .sequenceStart t.start
    else fail t block
  | .scalar text style =>
    pop
    emit (.scalar text style) t.start
    advance
  | .flowSequenceStart => goto .flowSequenceFirstEntry; emit .sequenceStart t.start
  | .flowMappingStart => goto .flowMappingFirstKey; emit .mappingStart t.start
  | .blockSequenceStart =>
    if block then goto .blockSequenceFirstEntry; emit .sequenceStart t.start else fail t block
  | .blockMappingStart =>
    if block then goto .blockMappingFirstKey; emit .mappingStart t.start else fail t block
  | _ => fail t block
where
  fail (t : Token) (block : Bool) : Parse Unit :=
    failAt (if block then "while parsing a block node" else "while parsing a flow node") t.start
      "did not find expected node content" t.start

/-- The start of a document, explicit or not, or the end of the stream. -/
def documentStart (implicit : Bool) : Parse Unit := do
  let mut t ← peek
  if !implicit then
    let rec skipEnds : Nat → Parse Token
      | 0 => peek
      | k + 1 => do
        let t ← peek
        if t.kind == .documentEnd then advance; skipEnds k else pure t
    t ← skipEnds ((← read).tokens.size + 1)
  if implicit && t.kind != .documentStart && t.kind != .streamEnd then
    push .documentEnd
    goto .blockNode
    emit .documentStart t.start
  else if t.kind != .streamEnd then
    if t.kind != .documentStart then
      throw { problem := "did not find expected <document start>", problemMark := t.start }
    push .documentEnd
    goto .documentContent
    emit .documentStart t.start
    advance
  else
    goto .finished
    emit .streamEnd t.start
    advance

/-- The content of an explicit document. -/
def documentContent : Parse Unit := do
  let t ← peek
  match t.kind with
  | .documentStart | .documentEnd | .streamEnd => pop; emptyScalar t.start
  | _ => node true false

/-- The end of a document. -/
def documentEnd : Parse Unit := do
  let t ← peek
  if t.kind == .documentEnd then advance
  goto .documentStart
  emit .documentEnd t.start

/-- An entry of a block sequence. -/
def blockSequenceEntry (first : Bool) : Parse Unit := do
  if first then
    pushMark (← peek).start
    advance
  let t ← peek
  match t.kind with
  | .blockEntry =>
    advance
    let n ← peek
    if n.kind != .blockEntry && n.kind != .blockEnd then
      push .blockSequenceEntry
      node true false
    else
      goto .blockSequenceEntry
      emptyScalar t.stop
  | .blockEnd =>
    pop
    let _ ← popMark
    emit .sequenceEnd t.start
    advance
  | _ =>
    failAt "while parsing a block collection" (← popMark) "did not find expected '-' indicator" t.start

/-- An entry of a sequence written with dashes at the column of its mapping key. -/
def indentlessSequenceEntry : Parse Unit := do
  let t ← peek
  if t.kind == .blockEntry then
    advance
    let n ← peek
    if n.kind != .blockEntry && n.kind != .key && n.kind != .value && n.kind != .blockEnd then
      push .indentlessSequenceEntry
      node true false
    else
      goto .indentlessSequenceEntry
      emptyScalar t.stop
  else
    pop
    emit .sequenceEnd t.start

/-- A key of a block mapping. -/
def blockMappingKey (first : Bool) : Parse Unit := do
  if first then
    pushMark (← peek).start
    advance
  let t ← peek
  match t.kind with
  | .key =>
    advance
    let n ← peek
    if n.kind != .key && n.kind != .value && n.kind != .blockEnd then
      push .blockMappingValue
      node true true
    else
      goto .blockMappingValue
      emptyScalar t.stop
  | .blockEnd =>
    pop
    let _ ← popMark
    emit .mappingEnd t.start
    advance
  | _ => failAt "while parsing a block mapping" (← popMark) "did not find expected key" t.start

/-- A value of a block mapping. -/
def blockMappingValue : Parse Unit := do
  let t ← peek
  if t.kind == .value then
    advance
    let n ← peek
    if n.kind != .key && n.kind != .value && n.kind != .blockEnd then
      push .blockMappingKey
      node true true
    else
      goto .blockMappingKey
      emptyScalar t.stop
  else
    goto .blockMappingKey
    emptyScalar t.start

/-- An entry of a flow sequence. -/
def flowSequenceEntry (first : Bool) : Parse Unit := do
  if first then
    pushMark (← peek).start
    advance
  let mut t ← peek
  if t.kind != .flowSequenceEnd then
    if !first then
      if t.kind == .flowEntry then
        advance
        t ← peek
      else
        failAt "while parsing a flow sequence" (← popMark) "did not find expected ',' or ']'" t.start
    if t.kind == .key then
      goto .flowSequenceEntryMappingKey
      emit .mappingStart t.start
      advance
      return
    else if t.kind != .flowSequenceEnd then
      push .flowSequenceEntry
      node false false
      return
  pop
  let _ ← popMark
  emit .sequenceEnd t.start
  advance

/-- The key of a one-pair mapping inside a flow sequence. -/
def flowSequenceEntryMappingKey : Parse Unit := do
  let t ← peek
  if t.kind != .value && t.kind != .flowEntry && t.kind != .flowSequenceEnd then
    push .flowSequenceEntryMappingValue
    node false false
  else
    goto .flowSequenceEntryMappingValue
    emptyScalar t.start

/-- The value of a one-pair mapping inside a flow sequence. -/
def flowSequenceEntryMappingValue : Parse Unit := do
  let t ← peek
  if t.kind == .value then
    advance
    let n ← peek
    if n.kind != .flowEntry && n.kind != .flowSequenceEnd then
      push .flowSequenceEntryMappingEnd
      node false false
      return
    goto .flowSequenceEntryMappingEnd
    emptyScalar n.start
  else
    goto .flowSequenceEntryMappingEnd
    emptyScalar t.start

/-- The end of a one-pair mapping inside a flow sequence. -/
def flowSequenceEntryMappingEnd : Parse Unit := do
  let t ← peek
  goto .flowSequenceEntry
  emit .mappingEnd t.start

/-- A key of a flow mapping. -/
def flowMappingKey (first : Bool) : Parse Unit := do
  if first then
    pushMark (← peek).start
    advance
  let mut t ← peek
  if t.kind != .flowMappingEnd then
    if !first then
      if t.kind == .flowEntry then
        advance
        t ← peek
      else
        failAt "while parsing a flow mapping" (← popMark) "did not find expected ',' or '\x7d'" t.start
    if t.kind == .key then
      advance
      let n ← peek
      if n.kind != .value && n.kind != .flowEntry && n.kind != .flowMappingEnd then
        push .flowMappingValue
        node false false
      else
        goto .flowMappingValue
        emptyScalar n.start
      return
    else if t.kind != .flowMappingEnd then
      push .flowMappingEmptyValue
      node false false
      return
  pop
  let _ ← popMark
  emit .mappingEnd t.start
  advance

/-- A value of a flow mapping. -/
def flowMappingValue (empty : Bool) : Parse Unit := do
  let t ← peek
  if empty then
    goto .flowMappingKey
    emptyScalar t.start
    return
  if t.kind == .value then
    advance
    let n ← peek
    if n.kind != .flowEntry && n.kind != .flowMappingEnd then
      push .flowMappingKey
      node false false
      return
    goto .flowMappingKey
    emptyScalar n.start
  else
    goto .flowMappingKey
    emptyScalar t.start

/-- One step of the machine. -/
def step : Parse Unit := do
  match (← get).state with
  | .streamStart =>
    let t ← peek
    goto .implicitDocumentStart
    advance
    let _ := t
  | .implicitDocumentStart => documentStart true
  | .documentStart => documentStart false
  | .documentContent => documentContent
  | .documentEnd => documentEnd
  | .blockNode => node true false
  | .blockNodeOrIndentlessSequence => node true true
  | .flowNode => node false false
  | .blockSequenceFirstEntry => blockSequenceEntry true
  | .blockSequenceEntry => blockSequenceEntry false
  | .indentlessSequenceEntry => indentlessSequenceEntry
  | .blockMappingFirstKey => blockMappingKey true
  | .blockMappingKey => blockMappingKey false
  | .blockMappingValue => blockMappingValue
  | .flowSequenceFirstEntry => flowSequenceEntry true
  | .flowSequenceEntry => flowSequenceEntry false
  | .flowSequenceEntryMappingKey => flowSequenceEntryMappingKey
  | .flowSequenceEntryMappingValue => flowSequenceEntryMappingValue
  | .flowSequenceEntryMappingEnd => flowSequenceEntryMappingEnd
  | .flowMappingFirstKey => flowMappingKey true
  | .flowMappingKey => flowMappingKey false
  | .flowMappingValue => flowMappingValue false
  | .flowMappingEmptyValue => flowMappingValue true
  | .finished => pure ()

/-- Steps until the stream ends. -/
def loop : Nat → Parse Unit
  | 0 => pure ()
  | fuel + 1 => do
    if (← get).state == .finished then return
    step
    loop fuel

end Parse

/-- The events of a text, and the error that stopped them, if one did. -/
structure Parsed where
  events : Array (Event × Mark)
  failure : Option SyntaxError := none

/-- Parses a whole text into events. -/
def parseEvents (text : String) : Parsed :=
  let scanned := scan text
  let fuel := 4 * (scanned.tokens.size + 2)
  match EStateM.run (ReaderT.run (Parse.loop fuel) scanned) {} with
  | .ok _ s => { events := s.events }
  | .error e s => { events := s.events, failure := some e }

end Yaml
end QueryShield
