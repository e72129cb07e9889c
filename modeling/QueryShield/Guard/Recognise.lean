import QueryShield.Text.Blank
import QueryShield.Text.WordChar
import QueryShield.Text.Digit
import QueryShield.Text.Fold
import QueryShield.Text.Base64

/-!
# Texts the guard lets through unread

Three shapes of text are never screened: an e-mail address, a plain decimal number and a
`data:` URI carrying valid base64.  Each recogniser below decides one shape on a text that
has been trimmed of blanks.

*E-mail address.*  Optionally a column name and `=`, optionally an opening quote, then the
local part, `@`, a dotted domain whose last label has two characters or more, and
optionally a closing quote.  The local part is either a double-quoted string (backslash
escapes any character but a line feed) or dot-separated atoms.  Of the ways to read a text,
the first in the order "with the column name, then without; with the opening quote, then
without; quoted local part, then atoms" decides, and a quoted local part that holds a blank
refuses the text.

*Number.*  An optional minus sign, decimal digits of any script, and optionally a point
followed by more digits.

*Data URI.*  `data:` (any case), a media type `type/subtype`, `;base64,` (any case) and a
payload of ASCII letters, digits, `+`, `/`, `=` and blanks; with the blanks removed the
payload must be non-empty canonical base64.
-/

namespace QueryShield
namespace Recognise

open Text

/-- Characters of an atom of an address's local part. -/
def isAtomChar (c : Char) : Bool :=
  isWordChar c || "!#$%&'*+/=?^`{|}~-".toList.contains c

/-- Characters of a domain label. -/
def isLabelChar (c : Char) : Bool := isWordChar c || c == '-'

/-- The text after a leading column name, blanks, `=` and blanks, if it starts so. -/
def afterColumnName (t : List Char) : Option (List Char) :=
  let name := t.takeWhile (fun c => !isBlank c && c != '=')
  if name.isEmpty then none
  else
    match (t.drop name.length).dropWhile isBlank with
    | '=' :: rest => some (rest.dropWhile isBlank)
    | _ => none

/-- The body of a double-quoted local part after its opening quote: the characters up to
the closing quote, and what follows that quote. -/
def quotedBody : List Char → Option (List Char × List Char)
  | [] => none
  | '"' :: rest => some ([], rest)
  | '\\' :: c :: rest =>
    if c == '\n' then none
    else (quotedBody rest).map fun (body, r) => ('\\' :: c :: body, r)
  | '\\' :: [] => none
  | c :: rest => (quotedBody rest).map fun (body, r) => (c :: body, r)

/-- A double-quoted local part with a non-empty body, and the rest of the text. -/
def quotedLocal : List Char → Option (List Char × List Char)
  | '"' :: rest =>
    match quotedBody rest with
    | some (body, r) => if body.isEmpty then none else some ('"' :: body ++ ['"'], r)
    | none => none
  | _ => none

/-- Further `.atom` parts of a dotted local part. -/
def dottedAtoms : List Char → List Char × List Char
  | '.' :: c :: rest =>
    if isAtomChar c then
      let more := (c :: rest).takeWhile isAtomChar
      let (tail, r) := dottedAtoms ((c :: rest).drop more.length)
      ('.' :: more ++ tail, r)
    else ([], '.' :: c :: rest)
  | cs => ([], cs)
termination_by cs => cs.length
decreasing_by
  simp only [List.length_drop, List.length_cons]
  have : 0 < more.length := by
    simp only [more, List.takeWhile_cons, if_pos (show isAtomChar c = true from by assumption)]
    simp
  omega

/-- A local part made of dot-separated atoms, and the rest of the text. -/
def atomLocal (t : List Char) : Option (List Char × List Char) :=
  let first := t.takeWhile isAtomChar
  if first.isEmpty then none
  else
    let (tail, r) := dottedAtoms (t.drop first.length)
    some (first ++ tail, r)

/-- Dot-separated labels, at least two, the last of two characters or more. -/
def isDomain (d : List Char) : Bool :=
  let labels := d.splitOn '.'
  labels.length ≥ 2 && labels.all (fun l => !l.isEmpty && l.all isLabelChar) &&
    (labels.getLast?.map List.length).getD 0 ≥ 2

/-- A domain, optionally followed by a closing quote. -/
def isDomainTail (d : List Char) : Bool :=
  isDomain d ||
    (match d.getLast? with
     | some q => (q == '\'' || q == '"') && isDomain d.dropLast
     | none => false)

/-- The readings of a local part at the start of `t`, in the order they are tried. -/
def localReadings (t : List Char) : List (List Char × List Char) :=
  (quotedLocal t).toList ++ (atomLocal t).toList

/-- The texts where the local part may start, in the order they are tried. -/
def localStarts (t : List Char) : List (List Char) :=
  let afterName := (afterColumnName t).toList ++ [t]
  afterName.flatMap fun r =>
    match r with
    | q :: r' => if q == '\'' || q == '"' then [r', r] else [r]
    | [] => [r]

/-- The local part of the first reading of `t` as an address, if there is one. -/
def addressLocal? (t : List Char) : Option (List Char) :=
  ((localStarts t).flatMap localReadings).findSome? fun (loc, rest) =>
    match rest with
    | '@' :: d => if isDomainTail d then some loc else none
    | _ => none

/-- Whether a text, trimmed, is a single e-mail address whose local part holds no blank. -/
def isEmail (s : String) : Bool :=
  match addressLocal? (trimChars s.toList) with
  | some loc => !loc.any isBlank
  | none => false

/-- Decimal digits of any script, at least one, and what follows them. -/
def digitRun (t : List Char) : Option (List Char) :=
  let ds := t.takeWhile isDecimalDigit
  if ds.isEmpty then none else some (t.drop ds.length)

/-- Whether a text, trimmed, is an optionally negative decimal number. -/
def isNumeric (s : String) : Bool :=
  let t := trimChars s.toList
  let t := match t with
    | '-' :: r => r
    | _ => t
  match digitRun t with
  | some [] => true
  | some ('.' :: r) => digitRun r == some []
  | _ => false

/-- Characters of a media type or subtype. -/
def isMediaChar (c : Char) : Bool := isWordChar c || c == '.' || c == '+' || c == '-'

/-- Characters of a base64 payload as the URI may write it. -/
def isPayloadChar (c : Char) : Bool :=
  (c.toNat < 0x80 && c.isAlphanum) || c == '+' || c == '/' || c == '=' || isBlank c

/-- The payload of a `data:type/subtype;base64,payload` text, if it has that shape. -/
def dataUriPayload? (t : List Char) : Option (List Char) := do
  guard (foldPrefix t "data:".toList)
  let t := t.drop 5
  let ty := t.takeWhile isMediaChar
  guard (!ty.isEmpty)
  let t := t.drop ty.length
  let t ← match t with
    | '/' :: r => some r
    | _ => none
  let sub := t.takeWhile isMediaChar
  guard (!sub.isEmpty)
  let t := t.drop sub.length
  guard (foldPrefix t ";base64,".toList)
  let payload := t.drop 8
  guard (!payload.isEmpty && payload.all isPayloadChar)
  pure payload

/-- Whether a text, trimmed, is a `data:` URI with a valid base64 payload. -/
def isBase64DataUri (s : String) : Bool :=
  match dataUriPayload? (trimChars s.toList) with
  | some payload =>
    let bare := payload.filter (fun c => !isBlank c)
    !bare.isEmpty && isCanonicalBase64 bare
  | none => false

end Recognise
end QueryShield
