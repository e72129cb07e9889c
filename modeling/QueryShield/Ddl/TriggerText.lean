import QueryShield.Name.Quote

/-!
# Trigger definitions

A trigger is given as a name, a table, a timing and event (`BEFORE|AFTER` and
`INSERT|UPDATE|DELETE`) and a body.  The body may be a bare statement (`BEGIN ... END`) or
a whole `CREATE TRIGGER` statement written for an interactive client, with `DELIMITER`
lines and `END$$` terminators.  `TriggerText.clean` turns it into one statement:

1. `DELIMITER x` lines are removed, with the blanks before them back to a line start;
2. a bare body gets the header `CREATE TRIGGER name timing ON table FOR EACH ROW`;
3. `CREATE TRIGGER IF NOT EXISTS` loses its `IF NOT EXISTS`;
4. a final `END` followed only by `$`, `;`, `/` and blanks ends the text as ` END`;
5. trailing semicolons and blanks go, runs of spaces and tabs become one space.

The result must hold exactly one `CREATE TRIGGER`, no forbidden statement
(`drop`, `alter`, `truncate`, `create database`, `use`, `grant`, `revoke`, `load data`,
`outfile`, `infile`), no reference to a system schema, a header for the requested trigger
and table, and as many `END`s as `BEGIN`s and `CASE` expressions.  Words are whole words
compared ignoring case.
-/

namespace QueryShield
namespace TriggerText

open Text

/-- A word of a text: its span and characters. -/
abbrev Word := Screen.Span × List Char

/-- Whether the stretch between two words is one or more blanks. -/
def blankBetween (t : List Char) (a b : Word) : Bool :=
  let gap := (t.drop a.1.stop).take (b.1.start - a.1.stop)
  !gap.isEmpty && gap.all isBlank

/-- Whether a word equals `w` ignoring case. -/
def wordIs (x : Word) (w : String) : Bool := foldEqWord x.2 w.toList

/-- The number of words equal to `w`. -/
def countWord (t : List Char) (w : String) : Nat :=
  (Screen.wordRuns t).countP (wordIs · w)

/-- Runs of consecutive words equal to `ws`, separated by blanks only, read from the left
without overlap; each as the span from the first word's start to the last word's stop. -/
def phrases (t : List Char) (ws : List String) : List Screen.Span :=
  go (Screen.wordRuns t)
where
  /-- Whether the words start with the phrase. -/
  fits : List Word → List String → Bool
    | _, [] => true
    | [x], [w] => wordIs x w
    | x :: y :: rest, w :: more =>
      wordIs x w && (more.isEmpty || (blankBetween t x y && fits (y :: rest) more))
    | _, _ => false
  go : List Word → List Screen.Span
    | [] => []
    | x :: rest =>
      if fits (x :: rest) ws then
        let last := ((x :: rest).take ws.length).getLast?.getD x
        ⟨x.1.start, last.1.stop⟩ :: go (rest.drop (ws.length - 1))
      else go rest
  termination_by xs => xs.length
  decreasing_by all_goals (simp only [List.length_cons, List.length_drop]; omega)

/-- The characters of a span. -/
def spanText (t : List Char) (sp : Screen.Span) : List Char :=
  (t.drop sp.start).take (sp.stop - sp.start)

/-- Replaces the spans (ascending, disjoint) by a text. -/
def replaceSpans (t : List Char) (spans : List Screen.Span) (by_ : List Char) : List Char :=
  go t 0 spans
where
  go : List Char → Nat → List Screen.Span → List Char
    | cs, _, [] => cs
    | cs, i, sp :: rest =>
      (cs.take (sp.start - i)) ++ by_ ++ go (cs.drop (sp.stop - i)) sp.stop rest

/-! ## Timing and event -/

/-- The timing and event with blanks collapsed, upper-cased; refused unless it reads
`BEFORE|AFTER INSERT|UPDATE|DELETE`. -/
def timingEvent (text : String) : Except GuardError String :=
  let words := blankWords text.toList []
  let collapsed := String.ofList (List.intercalate [' '] words)
  let ok := match words with
    | [a, b] => (foldEqWord a "BEFORE".toList || foldEqWord a "AFTER".toList) &&
        (foldEqWord b "INSERT".toList || foldEqWord b "UPDATE".toList || foldEqWord b "DELETE".toList)
    | _ => false
  if ok then .ok (asciiUpper collapsed)
  else .error (.invalidTrigger ("timing/event must be BEFORE|AFTER INSERT|UPDATE|DELETE, got '" ++
    text ++ "'"))
where
  /-- The maximal runs of non-blank characters; `cur` is the run being read, reversed. -/
  blankWords : List Char → List Char → List (List Char)
    | [], cur => if cur.isEmpty then [] else [cur.reverse]
    | c :: cs, cur =>
      if isBlank c then (if cur.isEmpty then blankWords cs [] else cur.reverse :: blankWords cs [])
      else blankWords cs (c :: cur)

/-! ## Cleaning -/

/-- Whether position `i` of `t` starts a line. -/
def lineStart (t : List Char) (i : Nat) : Bool := i == 0 || t[i - 1]? == some '\n'

/-- The length of a `DELIMITER x` line matched at the start of `t`: blanks (line breaks
included), the word, blanks, a run of non-blanks, then blanks up to a line end. -/
def delimiterLength (t : List Char) : Option Nat := do
  let lead := (t.takeWhile isBlank).length
  let r := t.drop lead
  guard (foldPrefix r "DELIMITER".toList)
  let r := r.drop 9
  let gap := (r.takeWhile isBlank).length
  guard (gap > 0)
  let r := r.drop gap
  let mark := (r.takeWhile (!isBlank ·)).length
  guard (mark > 0)
  let r := r.drop mark
  let trail := r.takeWhile isBlank
  let after := r.drop trail.length
  -- blanks up to the end of the text, or up to the last line break before more text
  let keep :=
    if after.isEmpty then trail.length
    else
      match (trail.reverse.findIdx? (· == '\n')) with
      | some j => trail.length - 1 - j
      | none => trail.length + 1
  guard (keep ≤ trail.length)
  pure (lead + 9 + gap + mark + keep)

/-- Removes every `DELIMITER` line. -/
def removeDelimiters (t : List Char) : List Char :=
  go t 0 t
where
  go (whole : List Char) : Nat → List Char → List Char
    | _, [] => []
    | i, c :: cs =>
      match (if lineStart whole i then delimiterLength (c :: cs) else none) with
      | some n =>
        if n = 0 then c :: go whole (i + 1) cs
        else go whole (i + n) (cs.drop (n - 1))
      | none => c :: go whole (i + 1) cs
  termination_by _ cs => cs.length
  decreasing_by all_goals (simp only [List.length_cons, List.length_drop]; omega)

/-- Whether the text starts with `CREATE TRIGGER` (after blanks) as whole words. -/
def startsWithCreateTrigger (t : List Char) : Bool :=
  match Screen.wordRuns (t.dropWhile isBlank) with
  | x :: y :: _ => x.1.start == 0 && wordIs x "CREATE" && wordIs y "TRIGGER" &&
      blankBetween (t.dropWhile isBlank) x y
  | _ => false

/-- Whether a character ends a client statement. -/
def isTerminator (c : Char) : Bool := c == '$' || c == ';' || c == '/'

/-- Replaces a final `END` followed by blanks, one run of terminators and blanks, with the
blanks before it, by ` END`. -/
def replaceEndTerminator (t : List Char) : List Char :=
  let tail := t.reverse.takeWhile (fun c => isBlank c || isTerminator c)
  let before := t.take (t.length - tail.length)
  -- after END: blanks, then terminators with no blank between them, then blanks to the end
  let afterBlanks := tail.reverse.dropWhile isBlank
  let terms := afterBlanks.takeWhile isTerminator
  if terms.isEmpty || !(afterBlanks.drop terms.length).all isBlank then t
  else
    let n := before.length
    if n < 3 then t
    else
      let endWord := before.drop (n - 3)
      let prev := if n > 3 then before[n - 4]? else none
      if foldEqWord endWord "END".toList && !((prev.map isWordChar).getD false) then
        let upto := before.take (n - 3)
        let lead := (upto.reverse.takeWhile isBlank).length
        upto.take (upto.length - lead) ++ " END".toList
      else t

/-- Removes the trailing run of semicolons and blanks. -/
def dropTrailingSemicolons (t : List Char) : List Char :=
  (t.reverse.dropWhile (fun c => c == ';' || isBlank c)).reverse

/-- Turns each run of spaces and tabs into one space; `inRun` says a space was just written. -/
def collapseSpaces : List Char → (inRun : Bool := false) → List Char
  | [], _ => []
  | c :: cs, inRun =>
    if c == ' ' || c == '\t' then
      if inRun then collapseSpaces cs true else ' ' :: collapseSpaces cs true
    else c :: collapseSpaces cs false

/-! ## Checks -/

/-- The forbidden statements, in the order they are tried. -/
def forbidden : List (List String) :=
  [["drop"], ["alter"], ["truncate"], ["create", "database"], ["use"], ["grant"], ["revoke"],
   ["load", "data"], ["outfile"], ["infile"]]

/-- The first forbidden statement, as written in the text. -/
def firstForbidden (t : List Char) : Option String :=
  let words := Screen.wordRuns t
  go words
where
  go : List Word → Option String
    | [] => none
    | x :: rest =>
      let hit := forbidden.find? fun ws => phrases.fits t (x :: rest) ws
      match hit with
      | some ws =>
        let last := ((x :: rest).take ws.length).getLast?.getD x
        some (String.ofList (spanText t ⟨x.1.start, last.1.stop⟩))
      | none => go rest

/-- The system schemas. -/
def systemSchemas : List String := Lexicon.systemSchemas

/-- The text without one leading backtick. -/
def dropTick (t : List Char) : List Char :=
  if t.head? = some '`' then t.tail else t

/-- Whether a system schema is referenced: its name as a whole word, optionally a backtick,
blanks, then a dot. -/
def referencesSystemSchema (t : List Char) : Bool :=
  (Screen.wordRuns t).any fun x =>
    systemSchemas.any (wordIs x ·) &&
      ((dropTick (t.drop x.1.stop)).dropWhile isBlank).head? == some '.'

/-- A name of the header: an optional backtick, name characters (letters ignoring case),
an optional backtick, then at least one blank. -/
def headerName (t : List Char) : Option (String × List Char) := do
  let t := dropTick t
  let isC (c : Char) : Bool := Name.isNameChar c || c == 'K' || c == 'ſ'
  let name := t.takeWhile isC
  guard (!name.isEmpty)
  let t := dropTick (t.drop name.length)
  let gap := t.takeWhile isBlank
  guard (!gap.isEmpty)
  pure (String.ofList name, t.drop gap.length)

/-- One of the words, then at least one blank. -/
def headerWord (ws : List String) (t : List Char) : Option (List Char) := do
  let w ← ws.find? fun w => foldPrefix t w.toList
  let t := t.drop w.length
  let gap := t.takeWhile isBlank
  guard (!gap.isEmpty)
  pure (t.drop gap.length)

/-- The trigger and table names of the statement's header. -/
def header (t : List Char) : Option (String × String) := do
  let t ← headerWord ["CREATE"] t
  let t ← headerWord ["TRIGGER"] t
  let (name, t) ← headerName t
  let t ← headerWord ["BEFORE", "AFTER"] t
  let t ← headerWord ["INSERT", "UPDATE", "DELETE"] t
  let t ← headerWord ["ON"] t
  let (table, t) ← headerName t
  let t ← headerWord ["FOR"] t
  let t ← headerWord ["EACH"] t
  let t ← headerWord ["ROW"] t
  guard (!t.isEmpty)
  pure (name, table)

/-- A name trimmed of blanks and of all surrounding backticks. -/
def bareName (s : String) : String :=
  let cs := (trimChars s.toList).dropWhile (· == '`')
  String.ofList (cs.reverse.dropWhile (· == '`')).reverse

/-- The checks that the text is one trigger statement for the requested names. -/
def check (sql : List Char) (name table : String) : Except GuardError Unit := do
  if (phrases sql ["create", "trigger"]).length != 1 then
    throw (.invalidTrigger "exactly one CREATE TRIGGER statement is allowed")
  match firstForbidden sql with
  | some m => throw (.invalidTrigger ("unsafe statement '" ++ m ++ "' in trigger"))
  | none => pure ()
  if referencesSystemSchema sql then
    throw (.invalidTrigger "trigger cannot reference a system schema")
  let some (n, tb) := header sql
    | throw (.invalidTrigger "malformed CREATE TRIGGER statement")
  let en := bareName name
  let et := bareName table
  if !eqIgnoreAsciiCase n en || !eqIgnoreAsciiCase tb et then
    throw (.invalidTrigger ("statement defines `" ++ n ++ "` on `" ++ tb ++ "`, expected `" ++ en ++
      "` on `" ++ et ++ "`"))
  let begins := countWord sql "BEGIN"
  let blockEnds := ["IF", "WHILE", "LOOP", "REPEAT", "CASE"].foldl
    (fun acc w => acc + (phrases sql ["END", w]).length) 0
  let endCases := (phrases sql ["END", "CASE"]).length
  let ends := countWord sql "END" - blockEnds
  let cases := countWord sql "CASE" - 2 * endCases
  if begins + cases != ends then
    throw (.invalidTrigger ("unbalanced BEGIN/END block (" ++ toString begins ++ " BEGIN vs " ++
      toString (ends - cases) ++ " END)"))

/-- The cleaned `CREATE TRIGGER` statement, or why it is refused. -/
def clean (name table timing body : String) : Except GuardError String := do
  let quotedName ← Name.quote name
  let quotedTable ← Name.quote table
  let timing ← timingEvent timing
  let body := trimChars body.toList
  if body.isEmpty then throw (.invalidTrigger "trigger body must not be empty")
  let sql := trimChars (removeDelimiters body)
  let sql := if startsWithCreateTrigger sql then sql
    else ("CREATE TRIGGER " ++ quotedName ++ " " ++ timing ++ " ON " ++ quotedTable ++
      " FOR EACH ROW ").toList ++ sql
  let sql := replaceSpans sql (phrases sql ["CREATE", "TRIGGER", "IF", "NOT", "EXISTS"])
    "CREATE TRIGGER".toList
  let sql := replaceEndTerminator sql
  let sql := dropTrailingSemicolons sql
  let sql := trimChars (collapseSpaces sql)
  check sql name table
  pure (String.ofList sql)

end TriggerText
end QueryShield
