import QueryShield.Json.Value
import QueryShield.Decode.Mismatch
import QueryShield.Text.Utf8

/-!
# Reading JSON text

A reader walks a JSON text from the left and reports the first fault with its place: the
line (from one) and the column, counted in bytes from the start of the line.  A fault found
while looking at the next character, before taking it, is placed one byte further on; a
fault of typed decoding that has no place of its own takes the place where the reader
stands when the fault reaches the enclosing value, which is after that value's closing
bracket.

Nesting is limited to 127 levels.  Numbers follow the text's form: an integer without point
or exponent is an unsigned number if it fits below `2^64`, a negative one if it fits down to
`-2^63`, and a double otherwise.  A decimal with a point or an exponent becomes a double by
scaling its leading digits (at most nineteen or twenty digits; further digits only move the
exponent) with the nearest double to a power of ten, one rounding per step; a result too
large for a double is refused as out of range.
-/

namespace QueryShield
namespace Json

/-- A fault with its place (line and byte column), if it has one yet. -/
structure Fault where
  message : String
  place : Option (Nat × Nat) := none
deriving Repr, Inhabited

/-- The message of a fault, followed by its place. -/
def Fault.text (f : Fault) : String :=
  match f.place with
  | none => f.message
  | some (l, c) => f.message ++ " at line " ++ toString l ++ " column " ++ toString c

/-- The reader's position: what is left to read, and the place reached. -/
structure Cursor where
  rest : List Char
  line : Nat := 1
  column : Nat := 0
deriving Repr

/-- A step of reading, which may fail; the position reached is kept on failure. -/
abbrev Reading := EStateM Fault Cursor

/-- The cursor after taking one character. -/
def Cursor.advance (s : Cursor) : Cursor :=
  match s.rest with
  | [] => s
  | c :: r =>
    if c == '\n' then { rest := r, line := s.line + 1, column := 0 }
    else { rest := r, line := s.line, column := s.column + c.utf8Size }

/-- The cursor after the JSON blanks (space, tab, line feed, carriage return). -/
def Cursor.skipBlanks (s : Cursor) : Cursor :=
  match h : s.rest with
  | [] => s
  | c :: _ =>
    if c == ' ' || c == '\n' || c == '\t' || c == '\r' then
      have : s.advance.rest.length < s.rest.length := by
        simp only [Cursor.advance, h]; split <;> simp
      s.advance.skipBlanks
    else s
termination_by s.rest.length

/-- The next character, not taken. -/
def peek : Reading (Option Char) := fun s => .ok s.rest.head? s

/-- Takes one character. -/
def eat : Reading Unit := fun s => .ok () s.advance

/-- Takes and returns the next character. -/
def next : Reading (Option Char) := fun s => .ok s.rest.head? s.advance

/-- Skips blanks and returns the next character, not taken. -/
def blanks : Reading (Option Char) := fun s =>
  let s := s.skipBlanks
  .ok s.rest.head? s

/-- How many characters are left. -/
def remaining : Reading Nat := fun s => .ok s.rest.length s

/-- The place reached. -/
def here : Reading (Nat × Nat) := fun s => .ok (s.line, s.column) s

/-- The place one byte after the place reached. -/
def ahead : Reading (Nat × Nat) := fun s =>
  match s.rest with
  | [] => .ok (s.line, s.column) s
  | c :: _ => .ok (if c == '\n' then (s.line + 1, 0) else (s.line, s.column + 1)) s

/-- Fails with a message placed where the reader stands. -/
def failHere {α : Type} (message : String) : Reading α := do
  let p ← here
  throw { message, place := some p }

/-- Fails with a message placed one byte ahead. -/
def failAhead {α : Type} (message : String) : Reading α := do
  let p ← ahead
  throw { message, place := some p }

/-- Gives a fault without a place the place where the reader stands. -/
def fix (f : Fault) : Reading Fault := do
  match f.place with
  | some _ => pure f
  | none =>
    let p ← here
    pure { f with place := some p }

/-- Runs a step and returns its outcome, keeping the position it reached. -/
def attempt {α : Type} (x : Reading α) : Reading (Except Fault α) := fun s =>
  match x s with
  | .ok a s => .ok (.ok a) s
  | .error e s => .ok (.error e) s

/-- Fails with a decoding mismatch, which has no place yet. -/
def mismatch {α : Type} (m : Mismatch) : Reading α := throw { message := m.message }

/-- The usual fault messages. -/
def eofValue : String := "EOF while parsing a value"

/-- Takes the rest of a word whose first letter was taken. -/
def ident (word : List Char) : Reading Unit := do
  for c in word do
    match ← next with
    | none => failHere eofValue
    | some d => if d != c then failHere "expected ident"

/-! ## Numbers -/

/-- Whether a character is an ASCII digit. -/
def isDigit (c : Char) : Bool := '0' ≤ c && c ≤ '9'

/-- The value of an ASCII digit. -/
def digitValue (c : Char) : Nat := c.toNat - '0'.toNat

/-- The largest unsigned 64-bit value. -/
def maxUnsigned : Nat := Nat.pow 2 64 - 1

/-- The largest signed 32-bit value. -/
def maxExponent : Nat := Nat.pow 2 31 - 1

/-- Whether `a * 10 + d` exceeds `limit`. -/
def overflows (a d limit : Nat) : Bool := a > limit / 10 || (a == limit / 10 && d > limit % 10)

/-- The double nearest to `10^k`. -/
def powerOfTen (k : Nat) : Binary64 := Binary64.ofRatio false (Nat.pow 10 k) 1

/-- Scales `f` by `10^e`, one rounding per step: an exponent beyond `308` first divides by
`10^308` (at most `steps` times) until the value is zero or the exponent is in range.
`none` when the value grows too large for a double. -/
def scaleByTen (f : Binary64) (e : Int) : Nat → Option Binary64
  | 0 => some f
  | steps + 1 =>
    if e.natAbs ≤ 308 then
      if e ≥ 0 then
        let g := f.mul (powerOfTen e.toNat)
        if g.isInfinite then none else some g
      else some (f.div (powerOfTen e.natAbs))
    else if f.isZero then some f
    else if e ≥ 0 then none
    else scaleByTen (f.div (powerOfTen 308)) (e + 308) steps

/-- Scales the leading digits by a power of ten, one rounding per step. -/
def fromParts (positive : Bool) (significand : Nat) (exponent : Int) : Reading Binary64 :=
  match scaleByTen (Binary64.ofNat significand) exponent 12 with
  | some f => pure (if positive then f else f.negate)
  | none => failHere "number out of range"

/-- Takes ASCII digits while they last. -/
def skipDigits : Reading Unit := do
  let n ← remaining
  for _ in [0:n] do
    match ← peek with
    | some c => if isDigit c then eat else break
    | none => break

/-- Clamps an exponent to the signed 32-bit range. -/
def saturate (e : Int) : Int := max (-(Nat.pow 2 31 : Int)) (min (Nat.pow 2 31 - 1) e)

/-- The double of a significand and the decimal exponent `start ± exp`, clamped. -/
def scaledBy (positive : Bool) (significand : Nat) (start : Int) (positiveExp : Bool)
    (exp : Nat) : Reading Binary64 :=
  fromParts positive significand
    (if positiveExp then saturate (start + exp) else saturate (start - exp))

/-- Exponent digits after the first, at most `fuel` more of them, then the double.  An
exponent beyond 32 bits gives a zero, or is out of range when it would grow a non-zero
significand. -/
def exponentDigits (positive : Bool) (significand : Nat) (start : Int) (positiveExp : Bool) :
    Nat → Nat → Reading Binary64
  | 0, exp => scaledBy positive significand start positiveExp exp
  | fuel + 1, exp => do
    match ← peek with
    | some c =>
      if isDigit c then
        eat
        if overflows exp (digitValue c) maxExponent then
          if significand != 0 && positiveExp then failHere "number out of range"
          skipDigits
          pure (if positive then Binary64.zero false else Binary64.zero true)
        else exponentDigits positive significand start positiveExp fuel (exp * 10 + digitValue c)
      else scaledBy positive significand start positiveExp exp
    | none => scaledBy positive significand start positiveExp exp

/-- After `e` or `E`: the exponent, then the double. -/
def exponentPart (positive : Bool) (significand : Nat) (start : Int) : Reading Binary64 := do
  eat
  let positiveExp ← do
    match ← peek with
    | some '+' => eat; pure true
    | some '-' => eat; pure false
    | _ => pure true
  let first ← next
  let exp : Nat ← match first with
    | none => failHere eofValue
    | some c => if isDigit c then pure (digitValue c) else failHere "invalid number"
  let n ← remaining
  exponentDigits positive significand start positiveExp n exp

/-- Fraction digits, at most `fuel` more of them: the significand grown by each digit taken,
the exponent lowered by one for each, and whether a digit was left because it would
overflow the significand. -/
def fractionDigits : Nat → Nat → Int → Reading (Nat × Int × Bool)
  | 0, sig, after => pure (sig, after, false)
  | fuel + 1, sig, after => do
    match ← peek with
    | some c =>
      if isDigit c then
        if overflows sig (digitValue c) maxUnsigned then pure (sig, after, true)
        else
          eat
          fractionDigits fuel (sig * 10 + digitValue c) (after - 1)
      else pure (sig, after, false)
    | none => pure (sig, after, false)

/-- After the point: the fraction digits, then an exponent or the double. -/
def decimalPart (positive : Bool) (significand : Nat) (before : Int) : Reading Binary64 := do
  eat
  let n ← remaining
  let (sig, after, overflowed) ← fractionDigits n significand 0
  if overflowed then
    skipDigits
    match ← peek with
    | some 'e' | some 'E' => exponentPart positive sig (before + after)
    | _ => fromParts positive sig (before + after)
  else
    if after == 0 then
      match ← peek with
      | some _ => failAhead "invalid number"
      | none => failAhead eofValue
    match ← peek with
    | some 'e' | some 'E' => exponentPart positive sig (before + after)
    | _ => fromParts positive sig (before + after)

/-- After the integer digits: a fraction, an exponent, or the integer itself. -/
def numberEnd (positive : Bool) (significand : Nat) : Reading JsonNumber := do
  match ← peek with
  | some '.' => return .float (← decimalPart positive significand 0)
  | some 'e' | some 'E' => return .float (← exponentPart positive significand 0)
  | _ =>
    if positive then return .unsigned significand
    else if significand == 0 then return .float (Binary64.zero true)
    else if significand ≤ Nat.pow 2 63 then return .signed (-(significand : Int))
    else return .float (Binary64.ofNat significand).negate

/-- Integer digits beyond the unsigned 64-bit range only move the exponent. -/
def longInteger (positive : Bool) (significand : Nat) : Reading JsonNumber := do
  let mut exp : Int := 0
  let n ← remaining
  for _ in [0:n + 1] do
    match ← peek with
    | some c =>
      if isDigit c then
        eat
        exp := exp + 1
      else if c == '.' then return .float (← decimalPart positive significand exp)
      else if c == 'e' || c == 'E' then return .float (← exponentPart positive significand exp)
      else break
    | none => break
  return .float (← fromParts positive significand exp)

/-- Integer digits after the first, at most `fuel` more of them, then the rest of the
number; a digit that would overflow 64 bits leaves the rest to `longInteger`. -/
def integerDigits (positive : Bool) : Nat → Nat → Reading JsonNumber
  | 0, sig => numberEnd positive sig
  | fuel + 1, sig => do
    match ← peek with
    | some d =>
      if isDigit d then
        if overflows sig (digitValue d) maxUnsigned then longInteger positive sig
        else
          eat
          integerDigits positive fuel (sig * 10 + digitValue d)
      else numberEnd positive sig
    | none => numberEnd positive sig

/-- A number whose sign, if any, was taken. -/
def readNumber (positive : Bool) : Reading JsonNumber := do
  match ← next with
  | none => failHere eofValue
  | some '0' =>
    match ← peek with
    | some c => if isDigit c then failAhead "invalid number" else numberEnd positive 0
    | none => numberEnd positive 0
  | some c =>
    if isDigit c then
      let n ← remaining
      integerDigits positive n (digitValue c)
    else failHere "invalid number"

/-! ## Strings -/

/-- The value of a hexadecimal digit. -/
def hexValue (c : Char) : Option Nat :=
  if isDigit c then some (digitValue c)
  else if 'a' ≤ c && c ≤ 'f' then some (c.toNat - 'a'.toNat + 10)
  else if 'A' ≤ c && c ≤ 'F' then some (c.toNat - 'A'.toNat + 10)
  else none

/-- Four hexadecimal digits of a `\u` escape. -/
def hexEscape : Reading Nat := do
  let s ← get
  match s.rest with
  | a :: b :: c :: d :: _ =>
    eat; eat; eat; eat
    match hexValue a, hexValue b, hexValue c, hexValue d with
    | some w, some x, some y, some z => pure (((w * 16 + x) * 16 + y) * 16 + z)
    | _, _, _, _ => failHere "invalid escape"
  | _ =>
    set { s with rest := [], column := s.column + Utf8.size s.rest }
    failHere "EOF while parsing a string"

/-- The character of a `\u` escape, joining a surrogate pair. -/
def unicodeEscape : Reading Char := do
  let n ← hexEscape
  if 0xDC00 ≤ n && n ≤ 0xDFFF then failHere "lone leading surrogate in hex escape"
  if n < 0xD800 || n > 0xDBFF then return Char.ofNat n
  match ← peek with
  | some '\\' => eat
  | some _ => eat; failHere "unexpected end of hex escape"
  | none => failHere "EOF while parsing a string"
  match ← peek with
  | some 'u' => eat
  | some _ => eat; failHere "unexpected end of hex escape"
  | none => failHere "EOF while parsing a string"
  let m ← hexEscape
  if m < 0xDC00 || m > 0xDFFF then failHere "lone leading surrogate in hex escape"
  return Char.ofNat ((((n - 0xD800) * 1024) ||| (m - 0xDC00)) + 0x10000)

/-- The character of an escape whose backslash was taken. -/
def escapedChar : Reading Char := do
  match ← next with
  | none => failHere "EOF while parsing a string"
  | some '"' => pure '"'
  | some '\\' => pure '\\'
  | some '/' => pure '/'
  | some 'b' => pure '\x08'
  | some 'f' => pure '\x0c'
  | some 'n' => pure '\n'
  | some 'r' => pure '\r'
  | some 't' => pure '\t'
  | some 'u' => unicodeEscape
  | some _ => failHere "invalid escape"

/-- The rest of a string, up to and with its closing quote: the characters read so far are
in `out`, last first, and at most `fuel` more are taken. -/
def stringRest : Nat → List Char → Reading String
  | 0, _ => failHere "EOF while parsing a string"
  | fuel + 1, out => do
    match ← next with
    | none => failHere "EOF while parsing a string"
    | some '"' => pure (String.ofList out.reverse)
    | some '\\' => stringRest fuel ((← escapedChar) :: out)
    | some c =>
      if c.toNat < 0x20 then
        failHere "control character (\\u0000-\\u001F) found while parsing a string"
      else stringRest fuel (c :: out)

/-- A string whose opening quote was taken, up to and with its closing quote. -/
def readString : Reading String := do
  let n ← remaining
  stringRest (n + 1) []

/-! ## Brackets -/

/-- Closes an array: the closing bracket, or the fault in its place. -/
def endArray : Reading Unit := do
  match ← blanks with
  | some ']' => eat
  | some ',' =>
    eat
    match ← blanks with
    | some ']' => failAhead "trailing comma"
    | _ => failAhead "trailing characters"
  | some _ => failAhead "trailing characters"
  | none => failAhead "EOF while parsing a list"

/-- Closes an object: the closing brace, or the fault in its place. -/
def endObject : Reading Unit := do
  match ← blanks with
  | some '}' => eat
  | some ',' => failAhead "trailing comma"
  | some _ => failAhead "trailing characters"
  | none => failAhead "EOF while parsing an object"

/-- Before an array item: `some true` when an item follows, `some false` at the end. -/
def arrayItemStart (first : Bool) : Reading Bool := do
  let c ← blanks
  let c ← match c with
    | some ']' => return false
    | some ',' =>
      if first then pure (some ',')
      else
        eat
        blanks
    | some b => if first then pure (some b) else failAhead "expected `,` or `]`"
    | none => failAhead "EOF while parsing a list"
  match c with
  | some ']' => failAhead "trailing comma"
  | some _ => pure true
  | none => failAhead eofValue

/-- Before an object member: `some true` when a key follows, `some false` at the end. -/
def memberStart (first : Bool) : Reading Bool := do
  let c ← blanks
  let c ← match c with
    | some '}' => return false
    | some ',' =>
      if first then pure (some ',')
      else
        eat
        blanks
    | some b => if first then pure (some b) else failAhead "expected `,` or `\x7d`"
    | none => failAhead "EOF while parsing an object"
  match c with
  | some '"' => pure true
  | some '}' => failAhead "trailing comma"
  | some _ => failAhead "key must be a string"
  | none => failAhead eofValue

/-- The colon between a key and its value. -/
def colon : Reading Unit := do
  match ← blanks with
  | some ':' => eat
  | some _ => failAhead "expected `:`"
  | none => failAhead "EOF while parsing an object"

/-- An object key: the quote is next. -/
def key : Reading String := do
  eat
  readString

/-- Array items from the next one on: the items read so far are in `out`, last first, at
most `fuel` more are tried, and `first` says that none was read yet. -/
def arrayItemsFrom {α : Type} (item : Reading α) : Nat → Bool → List α → Reading (List α)
  | 0, _, _ => failAhead "EOF while parsing a list"
  | fuel + 1, first, out => do
    if ← arrayItemStart first then arrayItemsFrom item fuel false ((← item) :: out)
    else pure out.reverse

/-- Reads the items of an array whose bracket was taken. -/
def arrayItems {α : Type} (item : Reading α) : Reading (List α) := do
  let n ← remaining
  arrayItemsFrom item (n + 1) true []

/-- Object members from the next one on: the members read so far are in `out`, last first,
at most `fuel` more are tried, and `first` says that none was read yet. -/
def membersFrom {α : Type} (member : String → Reading α) : Nat → Bool → List α → Reading (List α)
  | 0, _, _ => failAhead "EOF while parsing an object"
  | fuel + 1, first, out => do
    if ← memberStart first then
      let k ← key
      colon
      membersFrom member fuel false ((← member k) :: out)
    else pure out.reverse

/-- Reads the members of an object whose brace was taken. -/
def members {α : Type} (member : String → Reading α) : Reading (List α) := do
  let n ← remaining
  membersFrom member (n + 1) true []

/-- Reads an array or object body after its opening character: enforces the nesting limit,
then closes it, and gives a fault of the body the place reached after closing. -/
def bracketed {α : Type} (depth : Nat) (body : Reading α) (close : Reading Unit) : Reading α := do
  if depth ≤ 1 then failAhead "recursion limit exceeded"
  eat
  let r ← attempt body
  let e ← attempt close
  match r, e with
  | .ok v, .ok _ => pure v
  | .error err, _ => throw (← fix err)
  | .ok _, .error err => throw (← fix err)

/-! ## Values -/

/-- A value of any shape, with at most `depth - 1` further levels of nesting. -/
def readValue : Nat → Reading Json
  | 0 => failAhead "recursion limit exceeded"
  | depth + 1 => do
    let r ← attempt do
      match ← blanks with
      | none => failAhead eofValue
      | some 'n' => eat; ident "ull".toList; pure Json.null
      | some 't' => eat; ident "rue".toList; pure (Json.bool true)
      | some 'f' => eat; ident "alse".toList; pure (Json.bool false)
      | some '-' => eat; pure (Json.number (← readNumber false))
      | some '"' => eat; pure (Json.string (← readString))
      | some '[' => bracketed (depth + 1) (Json.array <$> arrayItems (readValue depth)) endArray
      | some '{' =>
        bracketed (depth + 1)
          (do
            let ms ← members fun k => do pure (k, ← readValue depth)
            pure (Json.object (ms.foldl (fun acc (k, v) => Json.insertSorted k v acc) [])))
          endObject
      | some c =>
        if isDigit c then pure (Json.number (← readNumber true)) else failAhead "expected value"
    match r with
    | .ok v => pure v
    | .error err => throw (← fix err)

/-- What was found at the next character, for a fault; takes scalars, not brackets. -/
def foundAhead : Reading (Except Fault Found) := do
  match ← peek with
  | some 'n' => eat; ident "ull".toList; pure (.ok .unit)
  | some 't' => eat; ident "rue".toList; pure (.ok (.boolean true))
  | some 'f' => eat; ident "alse".toList; pure (.ok (.boolean false))
  | some '-' =>
    eat
    match ← readNumber false with
    | .unsigned n => pure (.ok (.unsigned n))
    | .signed n => pure (.ok (.signed n))
    | .float x => pure (.ok (.float x))
  | some '"' => eat; pure (.ok (.str (← readString)))
  | some '[' => pure (.ok .sequence)
  | some '{' => pure (.ok .map)
  | some c =>
    if isDigit c then
      match ← readNumber true with
      | .unsigned n => pure (.ok (.unsigned n))
      | .signed n => pure (.ok (.signed n))
      | .float x => pure (.ok (.float x))
    else
      let p ← ahead
      pure (.error { message := "expected value", place := some p })
  | none =>
    let p ← ahead
    pure (.error { message := "expected value", place := some p })

/-- Fails because the next value has the wrong type. -/
def wrongType {α : Type} (expected : String) : Reading α := do
  match ← foundAhead with
  | .ok f => throw (← fix { message := (Mismatch.invalidType f expected).message })
  | .error e => throw e

/-- Reads a whole text with `reader`, refusing anything but blanks after it. -/
def readAll {α : Type} (reader : Reading α) (text : String) : Except Fault α :=
  let run : Reading α := do
    let v ← reader
    match ← blanks with
    | some _ => failAhead "trailing characters"
    | none => pure v
  match run { rest := text.toList } with
  | .ok v _ => .ok v
  | .error e _ => .error e

/-- The nesting limit of a text. -/
def nestingLimit : Nat := 128

/-- Reads a text as one JSON value. -/
def parse (text : String) : Except Fault Json := readAll (readValue nestingLimit) text

end Json
end QueryShield
