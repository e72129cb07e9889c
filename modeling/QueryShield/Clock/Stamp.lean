import QueryShield.Text.Blank
import QueryShield.Text.Fold

/-!
# Timestamps

A timestamp is a date of the proleptic Gregorian calendar and a time of day with
nanoseconds; a leap second is written as second `60`.

Timestamps are written `YYYY-MM-DD HH:MM:SS`, optionally with milliseconds (truncated, three
digits) or as the date alone.  A year outside `0..9999` is written with its sign.

Reading follows a pattern of fields and separators.  A number field takes one to its
width of ASCII digits (the year four, the others two; a signed year any number), after
optional leading blanks; a blank in the pattern takes any run of blanks; any other separator
must be there.  Reading fails with

* `input contains invalid characters` where a character does not fit,
* `premature end of input` where the text ends early,
* `trailing input` where text is left over,
* `input is out of range` for a field out of its range or a day the month does not have.
-/

namespace QueryShield

/-- A calendar date and a time of day. -/
structure Stamp where
  year : Int
  month : Nat
  day : Nat
  hour : Nat := 0
  minute : Nat := 0
  second : Nat := 0
  nanos : Nat := 0
deriving DecidableEq, Repr

/-- Why a text is not a timestamp. -/
inductive StampError where
  | outOfRange
  | invalid
  | tooShort
  | tooLong
deriving DecidableEq, Repr

namespace StampError

/-- The message of the error. -/
def message : StampError → String
  | .outOfRange => "input is out of range"
  | .invalid => "input contains invalid characters"
  | .tooShort => "premature end of input"
  | .tooLong => "trailing input"

end StampError

namespace Stamp

/-- Whether a year of the proleptic Gregorian calendar is a leap year. -/
def isLeapYear (y : Int) : Bool := (y % 4 == 0 && y % 100 != 0) || y % 400 == 0

/-- The number of days of a month. -/
def daysInMonth (y : Int) (m : Nat) : Nat :=
  match m with
  | 2 => if isLeapYear y then 29 else 28
  | 4 | 6 | 9 | 11 => 30
  | _ => 31

/-- A number with at least `width` digits, zeros in front. -/
def padded (width n : Nat) : String :=
  let s := toString n
  String.ofList (List.replicate (width - s.length) '0') ++ s

/-- The year: four digits in `0..9999`, otherwise signed with at least four digits. -/
def yearText (y : Int) : String :=
  if 0 ≤ y && y ≤ 9999 then padded 4 y.toNat
  else (if y < 0 then "-" else "+") ++ padded 4 y.natAbs

/-- The date as `YYYY-MM-DD`. -/
def dateText (s : Stamp) : String :=
  yearText s.year ++ "-" ++ padded 2 s.month ++ "-" ++ padded 2 s.day

/-- The timestamp as `YYYY-MM-DD HH:MM:SS`. -/
def text (s : Stamp) : String :=
  s.dateText ++ " " ++ padded 2 s.hour ++ ":" ++ padded 2 s.minute ++ ":" ++ padded 2 s.second

/-- The timestamp as `YYYY-MM-DD HH:MM:SS.mmm`, milliseconds truncated. -/
def millisText (s : Stamp) : String := s.text ++ "." ++ padded 3 (s.nanos / 1000000)

/-- The timestamp written as a date, with milliseconds, or plainly. -/
def render (s : Stamp) (dateOnly millis : Bool) : String :=
  if dateOnly then s.dateText else if millis then s.millisText else s.text

/-! ## Reading -/

/-- A step of reading: the rest of the text, or why it fails. -/
abbrev Scan (α : Type) := List Char → Except StampError (α × List Char)

/-- Takes one to `width` ASCII digits after optional leading blanks. -/
def digits (width : Nat) : Scan Nat := fun cs =>
  let cs := cs.dropWhile Text.isBlank
  let ds := (cs.takeWhile Char.isDigit).take width
  if ds.isEmpty then .error (if cs.isEmpty then .tooShort else .invalid)
  else .ok (ds.foldl (fun a c => a * 10 + (c.toNat - '0'.toNat)) 0, cs.drop ds.length)

/-- A field in a range. -/
def field (width lo hi : Nat) : Scan Nat := fun cs =>
  match digits width cs with
  | .ok (n, rest) => if lo ≤ n && n ≤ hi then .ok (n, rest) else .error .outOfRange
  | .error e => .error e

/-- The year: four digits, or a sign and any number of digits. -/
def yearField : Scan Int := fun cs =>
  let cs := cs.dropWhile Text.isBlank
  match cs with
  | '-' :: r => match digits 100 r with
    | .ok (n, rest) => .ok (-(n : Int), rest)
    | .error e => .error e
  | '+' :: r => match digits 100 r with
    | .ok (n, rest) => .ok ((n : Int), rest)
    | .error e => .error e
  | _ => match digits 4 cs with
    | .ok (n, rest) => .ok ((n : Int), rest)
    | .error e => .error e

/-- A separator character that must be there. -/
def literal (c : Char) : Scan Unit := fun cs =>
  match cs with
  | [] => .error .tooShort
  | d :: r => if d == c then .ok ((), r) else .error .invalid

/-- A blank in the pattern: any run of blanks. -/
def gap : Scan Unit := fun cs => .ok ((), cs.dropWhile Text.isBlank)

/-- An optional fraction of a second after a point: up to nine digits count, more are
ignored. -/
def fraction : Scan Nat := fun cs =>
  match cs with
  | '.' :: r =>
    let ds := r.takeWhile Char.isDigit
    if ds.isEmpty then .error (if r.isEmpty then .tooShort else .invalid)
    else
      let nine := (ds.take 9 ++ List.replicate (9 - min 9 ds.length) '0')
      .ok (nine.foldl (fun a c => a * 10 + (c.toNat - '0'.toNat)) 0, r.drop ds.length)
  | _ => .ok (0, cs)

/-- Reads the date fields `YYYY-MM-DD`. -/
def dateFields : Scan (Int × Nat × Nat) := fun cs => do
  let (y, cs) ← yearField cs
  let (_, cs) ← literal '-' cs
  let (m, cs) ← field 2 1 12 cs
  let (_, cs) ← literal '-' cs
  let (d, cs) ← field 2 1 31 cs
  pure ((y, m, d), cs)

/-- Reads the time fields `HH:MM:SS`. -/
def timeFields : Scan (Nat × Nat × Nat) := fun cs => do
  let (h, cs) ← field 2 0 23 cs
  let (_, cs) ← literal ':' cs
  let (mi, cs) ← field 2 0 59 cs
  let (_, cs) ← literal ':' cs
  let (s, cs) ← field 2 0 60 cs
  pure ((h, mi, s), cs)

/-- Checks that the date exists and nothing is left. -/
def finish (y : Int) (m d : Nat) (rest : List Char) : Except StampError Unit :=
  if !rest.isEmpty then .error .tooLong
  else if y < -262143 || y > 262142 || d > daysInMonth y m then .error .outOfRange
  else .ok ()

/-- Reads `YYYY-MM-DD HH:MM:SS`, optionally followed by a fraction when `withFraction`. -/
def parseDateTime (text : String) (withFraction : Bool := false) : Except StampError Stamp := do
  let cs := text.toList
  let ((y, m, d), cs) ← dateFields cs
  let (_, cs) ← gap cs
  let ((h, mi, s), cs) ← timeFields cs
  let (n, cs) ← if withFraction then fraction cs else pure (0, cs)
  finish y m d cs
  pure { year := y, month := m, day := d, hour := h, minute := mi, second := s, nanos := n }

/-- Reads `YYYY-MM-DD` as midnight of that day. -/
def parseDate (text : String) : Except StampError Stamp := do
  let ((y, m, d), cs) ← dateFields text.toList
  finish y m d cs
  pure { year := y, month := m, day := d }

/-- Reads a trimmed text as a timestamp, or as a date at midnight when `dateOnly`. -/
def read (text : String) (dateOnly : Bool) : Except StampError Stamp :=
  if dateOnly then parseDate (Text.trim text) else parseDateTime (Text.trim text)

/-! ## Sentinels -/

/-- The text a sentinel stands for at the clock's time: `now` and `now()` stand for the
timestamp, `current_date` and `current_date()` for the date, in any ASCII case and with
surrounding blanks. -/
def sentinel (clock : Stamp) (text : String) : Option String :=
  let w := Text.asciiLower (Text.trim text)
  if w == "now" || w == "now()" then some clock.text
  else if w == "current_date" || w == "current_date()" then some clock.dateText
  else none

/-! ## From a count of seconds -/

/-- The moment that lies a number of seconds (and nanoseconds) after 1970-01-01 00:00:00.
Days are counted from 0000-03-01 in eras of 400 years, 146097 days each; within an era a
year starts on 1 March, so that the leap day is the last day of its year and the months
from March on have the lengths 31, 30, 31, 30, 31, 31, 30, 31, 30, 31, 31, 28 or 29. -/
def ofUnixTime (secs : Int) (nanos : Nat) : Stamp :=
  let days := secs / 86400
  let rest := (secs % 86400).toNat
  let z := days + 719468
  let era := z / 146097
  let dayOfEra := (z % 146097).toNat
  let yearOfEra := (dayOfEra - dayOfEra / 1460 + dayOfEra / 36524 - dayOfEra / 146096) / 365
  let dayOfYear := dayOfEra - (365 * yearOfEra + yearOfEra / 4 - yearOfEra / 100)
  let shifted := (5 * dayOfYear + 2) / 153
  let month := if shifted < 10 then shifted + 3 else shifted - 9
  { year := (yearOfEra : Int) + era * 400 + (if month ≤ 2 then 1 else 0),
    month, day := dayOfYear - (153 * shifted + 2) / 5 + 1,
    hour := rest / 3600, minute := rest / 60 % 60, second := rest % 60, nanos }

end Stamp
end QueryShield
