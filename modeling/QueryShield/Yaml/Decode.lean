import QueryShield.Yaml.Parser
import QueryShield.Decode.Mismatch

/-!
# YAML: typed decoding

A text is decoded from the events of its first document.  A document with no content is
*void*, which decodes as an empty mapping.  Decoding reads events in order; when it needs
an event past the end of a document that the parser could not finish, it fails with the
parser's error.  Only after a successful decoding is a parse error of the document, or a
second document, reported.

Failures carry a message and, once known, the place of the node that failed: its position
and its path of keys from the root (`cache.ttl`).  A message is written as
`path: message at line L column C`, without the path at the root and without the position
at the very start of the text.

Plain scalars have types: empty, `~` and `null` are null, `true` and `false` (also
capitalised or upper case) are booleans, then integers (decimal, or `0x`, `0o`, `0b`
with an optional sign; a leading zero makes digits a string), then decimal numbers and
`.inf`, `.nan`; everything else is a string.  Quoted scalars are always strings.
-/

namespace QueryShield
namespace Yaml

/-- The events of the first document, how it ended, and whether more follows. -/
structure Document where
  events : Array (Event × Mark)
  failure : Option SyntaxError := none
  more : Bool := false
  void : Bool := false

/-- The first document of a text. -/
def firstDocument (text : String) : Document :=
  let p := parseEvents text
  let evs := p.events.toList
  -- the events after the stream and document starts, up to the first document end
  let body := (evs.dropWhile fun (e, _) => e == .documentStart).takeWhile fun (e, _) => e != .documentEnd
  let rest := (evs.dropWhile fun (e, _) => e == .documentStart).dropWhile fun (e, _) => e != .documentEnd
  match rest with
  | [] =>
    -- the document did not end: either an error stopped it, or there was no document
    let body := body.filter fun (e, _) => e != .streamEnd
    { events := body.toArray, failure := p.failure,
      void := body.isEmpty && p.failure.isNone }
  | _ :: after =>
    let more := match after with
      | (e, _) :: _ => e != .streamEnd
      | [] => p.failure.isSome
    { events := body.toArray, more }

/-- Why decoding failed. -/
inductive Failure where
  /-- The text is not well-formed YAML. -/
  | malformed (e : SyntaxError)
  /-- A node does not fit; the place is its position and path once known. -/
  | unfit (text : String) (place : Option (Mark × List String))
  /-- Events ran out. -/
  | endOfStream
  /-- The text holds more than one document. -/
  | moreThanOneDocument

namespace Failure

/-- The path of keys as messages write it: `.` for the root. -/
def pathText (path : List String) : String :=
  if path.isEmpty then "." else ".".intercalate path

/-- The failure's message. -/
def message : Failure → String
  | .malformed e => e.message
  | .unfit t none => t
  | .unfit t (some (m, path)) =>
    (if path.isEmpty then "" else pathText path ++ ": ") ++ t ++
      (if m.isStart then "" else " at " ++ m.text)
  | .endOfStream => "EOF while parsing a value"
  | .moreThanOneDocument => "deserializing from YAML containing more than one document is not supported"

end Failure

/-- Where decoding stands in a document. -/
structure Cursor where
  document : Document
  pos : Nat := 0

/-- A decoding step. -/
abbrev Decoding := EStateM Failure Cursor

namespace Decoding

/-- The next event, without taking it. -/
def peek : Decoding (Event × Mark) := do
  let c ← get
  if c.document.void && c.pos == 0 then return (.streamEnd, {})
  match c.document.events[c.pos]? with
  | some e => pure e
  | none =>
    match c.document.failure with
    | some e => throw (.malformed e)
    | none => throw .endOfStream

/-- Takes the next event; a void document is one empty event. -/
def next : Decoding (Event × Mark) := do
  let e ← peek
  modify fun c => { c with pos := c.pos + 1 }
  pure e

/-- Whether the document is void and its one event not yet taken. -/
def atVoid : Decoding Bool := do
  let c ← get
  pure (c.document.void && c.pos == 0)

/-- Gives a failure without a place the place of the node being decoded. -/
def placed {α : Type} (mark : Mark) (path : List String) (x : Decoding α) : Decoding α :=
  tryCatch x fun
    | .unfit t none => throw (.unfit t (some (mark, path)))
    | f => throw f

/-- Fails with a decoding mismatch. -/
def mismatch {α : Type} (m : Mismatch) : Decoding α := throw (.unfit m.message none)

/-- Whether a plain scalar is null. -/
def isNullWord (t : String) : Bool := t.isEmpty || t == "~" || t == "null" || t == "Null" || t == "NULL"

/-- The boolean of a plain scalar. -/
def boolWord? (t : String) : Option Bool :=
  if t == "true" || t == "True" || t == "TRUE" then some true
  else if t == "false" || t == "False" || t == "FALSE" then some false
  else none

/-- The value of digits in a radix, if every character is one. -/
def digitsIn (radix : Nat) (cs : List Char) : Option Nat :=
  if cs.isEmpty then none
  else cs.foldlM (fun acc c =>
    let d := if '0' ≤ c && c ≤ '9' then c.toNat - '0'.toNat
      else if 'a' ≤ c && c ≤ 'z' then c.toNat - 'a'.toNat + 10
      else if 'A' ≤ c && c ≤ 'Z' then c.toNat - 'A'.toNat + 10
      else 99
    if d < radix then some (acc * radix + d) else none) 0

/-- Digits with a leading zero (after one optional sign), which count as a string. -/
def zeroLed (t : String) : Bool :=
  let cs := match t.toList with
    | '-' :: r | '+' :: r => r
    | r => r
  match cs with
  | '0' :: d :: r => (d :: r).all Char.isDigit
  | _ => false

/-- A number in a radix with an optional leading `+` (as the standard parser reads
integers), below `limit`. -/
def radixValue (radix : Nat) (cs : List Char) : Option Nat :=
  match cs with
  | '+' :: r => digitsIn radix r
  | r => digitsIn radix r

/-- The unsigned integer of a plain scalar below `2^bits`. -/
def unsignedOf? (bits : Nat) (t : String) : Option Nat :=
  let cs := t.toList
  let unpositive := match cs with
    | '+' :: r => r
    | r => r
  let fits (n : Nat) : Option Nat := if n < Nat.pow 2 bits then some n else none
  let prefixed (p : List Char) (radix : Nat) : Option Nat :=
    if p.isPrefixOf unpositive then
      let rest := unpositive.drop 2
      match rest with
      | '+' :: _ | '-' :: _ => none
      | _ => (radixValue radix rest).bind fits
    else none
  match prefixed ['0', 'x'] 16 with
  | some n => some n
  | none =>
    match prefixed ['0', 'o'] 8 with
    | some n => some n
    | none =>
      match prefixed ['0', 'b'] 2 with
      | some n => some n
      | none =>
        match unpositive with
        | '+' :: _ | '-' :: _ => none
        | _ => if zeroLed t then none else (radixValue 10 unpositive).bind fits

/-- The negative (or, written without sign, non-negative) integer of a plain scalar that
fits in `bits` signed bits. -/
def signedOf? (bits : Nat) (t : String) : Option Int :=
  let fits (n : Int) : Option Int := if -(Nat.pow 2 (bits - 1) : Int) ≤ n && n < Nat.pow 2 (bits - 1) then some n else none
  let cs := t.toList
  let prefixed (p : List Char) (radix : Nat) : Option Int :=
    if p.isPrefixOf cs then
      match cs.drop 3 with
      | '+' :: _ | '-' :: _ => none
      | rest => (digitsIn radix rest).bind fun n => fits (-(n : Int))
    else none
  match prefixed ['-', '0', 'x'] 16 with
  | some n => some n
  | none =>
    match prefixed ['-', '0', 'o'] 8 with
    | some n => some n
    | none =>
      match prefixed ['-', '0', 'b'] 2 with
      | some n => some n
      | none =>
        if zeroLed t then none
        else match cs with
          | '-' :: r => (digitsIn 10 r).bind fun n => fits (-(n : Int))
          | '+' :: r => (digitsIn 10 r).bind fun n => fits n
          | r => (digitsIn 10 r).bind fun n => fits n

/-- The decimal number of a text in the standard float syntax: sign, digits with an
optional point, optional exponent; finite values only. -/
def decimalOf? (t : String) : Option Binary64 :=
  let cs := t.toList
  let (neg, body) := match cs with
    | '-' :: r => (true, r)
    | '+' :: r => (false, r)
    | r => (false, r)
  let intPart := body.takeWhile Char.isDigit
  let afterInt := body.drop intPart.length
  let (fracPart, afterFrac) := match afterInt with
    | '.' :: r => (r.takeWhile Char.isDigit, r.drop (r.takeWhile Char.isDigit).length)
    | r => ([], r)
  let hasPoint := match afterInt with
    | '.' :: _ => true
    | _ => false
  if intPart.isEmpty && fracPart.isEmpty then none
  else
    let expo : Option Int := match afterFrac with
      | [] => some 0
      | 'e' :: r | 'E' :: r =>
        match r with
        | '-' :: ds => (digitsIn 10 ds).map fun n => -(n : Int)
        | '+' :: ds => (digitsIn 10 ds).map fun n => (n : Int)
        | ds => (digitsIn 10 ds).map fun n => (n : Int)
      | _ => none
    let _ := hasPoint
    match expo with
    | none => none
    | some e =>
      let digits := (digitsIn 10 (intPart ++ fracPart)).getD 0
      let x := Binary64.ofDecimal neg digits (e - fracPart.length)
      if x.isFinite then some x else none

/-- The double of a plain scalar: the named infinities and not-a-number, or a finite
decimal (one leading `+` allowed). -/
def floatOf? (t : String) : Option Binary64 :=
  let unpositive := match t.toList with
    | '+' :: r => some (String.ofList r)
    | _ => some t
  match unpositive with
  | none => none
  | some u =>
    if t.startsWith "+" && (u.startsWith "+" || u.startsWith "-") then none
    else if u == ".inf" || u == ".Inf" || u == ".INF" then some (Binary64.infinity false)
    else if t == "-.inf" || t == "-.Inf" || t == "-.INF" then some (Binary64.infinity true)
    else if t == ".nan" || t == ".NaN" || t == ".NAN" then some Binary64.nan
    else decimalOf? u

/-- What a plain scalar is, as messages name it. -/
def classify (t : String) : Found :=
  if isNullWord t then .unit
  else match boolWord? t with
  | some b => .boolean b
  | none =>
    match unsignedOf? 64 t with
    | some n => .unsigned n
    | none =>
      match signedOf? 64 t with
      | some n => .signed n
      | none =>
        match unsignedOf? 128 t with
        | some n => .other ("integer `" ++ toString n ++ "` as u128")
        | none =>
          match signedOf? 128 t with
          | some n => .other ("integer `" ++ toString n ++ "` as i128")
          | none =>
            match (if zeroLed t then none else floatOf? t) with
            | some x => .float x
            | none => .str t

/-- What an event is, as messages name it. -/
def found : Event → Found
  | .scalar t .plain => classify t
  | .scalar t _ => .str t
  | .sequenceStart => .sequence
  | .mappingStart => .map
  | _ => .unit

/-- Fails because an event is not of the expected kind. -/
def invalidType {α : Type} (e : Event) (expected : String) : Decoding α :=
  match e with
  | .scalar .. | .sequenceStart | .mappingStart => mismatch (.invalidType (found e) expected)
  | _ => throw .endOfStream

/-- Steps over one node, however deep. -/
def skipNode : Nat → Nat → Decoding Unit
  | 0, _ => pure ()
  | fuel + 1, depth => do
    let (e, _) ← next
    let depth := match e with
      | .sequenceStart | .mappingStart => depth + 1
      | .sequenceEnd | .mappingEnd => depth - 1
      | _ => depth
    if depth == 0 then return
    skipNode fuel depth

/-- Skips one node. -/
def ignore : Decoding Unit := do
  if ← atVoid then let _ ← next; return
  skipNode ((← get).document.events.size + 1) 0

/-- A text: any scalar. -/
def text (path : List String) : Decoding String := do
  let (e, m) ← next
  placed m path do
    match e with
    | .scalar t _ => pure t
    | _ => invalidType e "a string"

/-- An optional text: a null plain scalar is none. -/
def optionalText (path : List String) : Decoding (Option String) := do
  if ← atVoid then let _ ← next; return none
  match ← peek with
  | (.scalar t .plain, _) => if isNullWord t then (do let _ ← next; pure none) else some <$> text path
  | _ => some <$> text path

/-- A boolean. -/
def bool (path : List String) : Decoding Bool := do
  let (e, m) ← next
  placed m path do
    match e with
    | .scalar t .plain =>
      match boolWord? t with
      | some b => pure b
      | none => invalidType e "a boolean"
    | _ => invalidType e "a boolean"

/-- An unsigned integer below `2^bits`, named `uN` in messages. -/
def unsigned (bits : Nat) (path : List String) : Decoding Nat := do
  let (e, m) ← next
  let expected := "u" ++ toString bits
  placed m path do
    match e with
    | .scalar t .plain =>
      match unsignedOf? 64 t with
      | some n => if n < Nat.pow 2 bits then pure n else mismatch (.invalidValue (.unsigned n) expected)
      | none => invalidType e expected
    | _ => invalidType e expected

/-- A signed 64-bit integer. -/
def signed64 (path : List String) : Decoding Int := do
  let (e, m) ← next
  placed m path do
    match e with
    | .scalar t .plain =>
      match unsignedOf? 64 t with
      | some n => if n < Nat.pow 2 63 then pure n else mismatch (.invalidValue (.unsigned n) "i64")
      | none =>
        match signedOf? 64 t with
        | some n => pure n
        | none => invalidType e "i64"
    | _ => invalidType e "i64"

/-- One of a list of unit variants, by name. -/
def variant (name : String) (variants : List String) (path : List String) : Decoding String := do
  let (e, m) ← next
  placed m path do
    match e with
    | .scalar t _ => if variants.contains t then pure t else mismatch (.unknownVariant t variants)
    | _ => invalidType e ("enum " ++ name)

/-- The members of a mapping decoded into a record: each known key once, unknown keys
skipped. -/
def members {α : Type} (fields : List (String × (List String → α → Decoding α)))
    (path : List String) : Nat → List String → α → Decoding α
  | 0, _, acc => pure acc
  | fuel + 1, seen, acc => do
    let (e, km) ← peek
    match e with
    | .mappingEnd => let _ ← next; pure acc
    | .scalar k _ =>
      let _ ← next
      match fields.lookup k with
      | some field =>
        if seen.contains k then mismatch (.duplicateField k)
        let acc ← field (path ++ [k]) acc
        members fields path fuel (k :: seen) acc
      | none =>
        ignore
        members fields path fuel seen acc
    | _ =>
      let _ ← next
      placed km path (invalidType e "field identifier")

/-- A record written as a mapping; an empty plain scalar or a void document leaves every
field at its default. -/
def record {α : Type} (name : String) (default : α)
    (fields : List (String × (List String → α → Decoding α))) (path : List String) : Decoding α := do
  if ← atVoid then let _ ← next; return default
  let (e, m) ← next
  placed m path do
    match e with
    | .mappingStart => members fields path ((← get).document.events.size + 1) [] default
    | .scalar "" .plain => pure default
    | _ => invalidType e ("struct " ++ name)

end Decoding

/-- Decodes the first document of a text; a parse error of that document or a second
document is reported after a successful decoding. -/
def decodeText {α : Type} (text : String) (decoder : Decoding α) : Except Failure α :=
  let doc := firstDocument text
  match EStateM.run decoder { document := doc } with
  | .ok v _ =>
    match doc.failure with
    | some e => .error (.malformed e)
    | none => if doc.more then .error .moreThanOneDocument else .ok v
  | .error f _ => .error f

end Yaml
end QueryShield
