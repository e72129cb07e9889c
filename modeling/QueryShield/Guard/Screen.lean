import QueryShield.Guard.Lexicon
import QueryShield.Guard.Verdict
import QueryShield.Guard.Recognise

/-!
# Screening a text

`Screen.inspect` decides whether a text carries a sign of injection.  The text is trimmed
of blanks first; an empty text, an e-mail address and a number are clean.  A text that
holds the marker `;base64` (in any ASCII case) is clean exactly when it is a valid base64
data URI, and is otherwise flagged as a base64 payload.

Every other text is searched family by family, symbols first, then keywords, then logic
words, each only when chosen:

* a *symbol* is one of `Lexicon.hazardSymbols`; the text is read from the left, and at each
  place the first symbol of the list that starts there is taken;
* a *keyword* or *logic word* is a maximal run of word characters equal, ignoring case, to
  a word of the family.

Occurrences inside a *safe phrase* (`order by`, optionally followed by `asc` or `desc`,
`selective`, `unionized`) do not count.  The first occurrence that counts gives the
verdict, with the text as it stands in the input.
-/

namespace QueryShield
namespace Screen

open Text

/-- A stretch of a text by character positions, start included and end excluded. -/
structure Span where
  start : Nat
  stop : Nat
deriving DecidableEq, Repr

/-- Whether one span lies inside another. -/
def Span.within (inner outer : Span) : Bool :=
  outer.start ≤ inner.start && inner.stop ≤ outer.stop

/-! ## Safe phrases -/

/-- The length of `order by` with its optional ending at the start of `t`, if it is there.
A single blank may stand between the words, and one more before `asc` or `desc`. -/
def orderByLength (t : List Char) : Option Nat := do
  guard (foldPrefix t "order".toList)
  let r := t.drop 5
  let gap := match r with
    | c :: r' => if isBlank c && foldPrefix r' "by".toList then 1 else 0
    | [] => 0
  guard (foldPrefix (r.drop gap) "by".toList)
  let r := r.drop (gap + 2)
  let (blank, r) := match r with
    | c :: r' => if isBlank c then (1, r') else (0, r)
    | [] => (0, r)
  let tail := if foldPrefix r "asc".toList then 3 else if foldPrefix r "desc".toList then 4 else 0
  pure (5 + gap + 2 + blank + tail)

/-- The length of a safe phrase at the start of `t`, trying the phrases in order. -/
def safePhraseLength (t : List Char) : Option Nat :=
  match orderByLength t with
  | some n => some n
  | none =>
    if foldPrefix t "selective".toList then some 9
    else if foldPrefix t "unionized".toList then some 9
    else none

/-- The safe phrases of a text, read from the left without overlap. -/
def safeSpans (t : List Char) : List Span :=
  go t 0
where
  /-- A phrase is at least one character long, so the rest after it is `cs.drop (n - 1)`. -/
  go : List Char → Nat → List Span
  | [], _ => []
  | c :: cs, i =>
    match safePhraseLength (c :: cs) with
    | some n => ⟨i, i + n⟩ :: go (cs.drop (n - 1)) (i + n)
    | none => go cs (i + 1)
  termination_by cs => cs.length
  decreasing_by all_goals (simp only [List.length_cons, List.length_drop]; omega)

/-! ## Symbols -/

/-- The first hazard symbol, in list order, that starts `t`. -/
def symbolAt (t : List Char) : Option String :=
  Lexicon.hazardSymbols.find? fun s => t.take s.length == s.toList

/-- Occurrences of hazard symbols, read from the left without overlap. -/
def symbolOccurrences (t : List Char) : List (Span × String) :=
  go t 0
where
  /-- Every symbol is at least one character long, so the rest after it is
  `cs.drop (s.length - 1)`. -/
  go : List Char → Nat → List (Span × String)
  | [], _ => []
  | c :: cs, i =>
    match symbolAt (c :: cs) with
    | some s => (⟨i, i + s.length⟩, s) :: go (cs.drop (s.length - 1)) (i + s.length)
    | none => go cs (i + 1)
  termination_by cs => cs.length
  decreasing_by all_goals (simp only [List.length_cons, List.length_drop]; omega)

/-! ## Words -/

/-- The maximal runs of word characters of a text, with their spans. -/
def wordRuns (t : List Char) : List (Span × List Char) :=
  go t 0
where
  /-- A run starting with the word character `c` goes on with the word characters of `cs`. -/
  go : List Char → Nat → List (Span × List Char)
  | [], _ => []
  | c :: cs, i =>
    if isWordChar c then
      let more := cs.takeWhile isWordChar
      (⟨i, i + more.length + 1⟩, c :: more) :: go (cs.drop more.length) (i + more.length + 1)
    else go cs (i + 1)
  termination_by cs => cs.length
  decreasing_by all_goals (simp only [List.length_cons, List.length_drop]; omega)

/-- The runs of a text that equal, ignoring case, a word of the list. -/
def wordOccurrences (words : List String) (t : List Char) : List (Span × List Char) :=
  (wordRuns t).filter fun (_, run) => words.any fun w => foldEqWord run w.toList

/-! ## The verdict -/

/-- The first occurrence outside every safe span. -/
def firstOutside {α : Type} (safe : List Span) (occ : List (Span × α)) : Option α :=
  (occ.find? fun (sp, _) => !safe.any sp.within).map Prod.snd

/-- The verdict of the family searches on a text that no pre-filter let through. -/
def searchFamilies (t : List Char) (families : Families) : Verdict :=
  let safe := safeSpans t
  let symbolHit := if families.symbols then firstOutside safe (symbolOccurrences t) else none
  match symbolHit with
  | some s => .flagged .symbol s
  | none =>
    let keywordHit :=
      if families.keywords then firstOutside safe (wordOccurrences Lexicon.keywordFamilyWords t)
      else none
    match keywordHit with
    | some w => .flagged .keyword (String.ofList w)
    | none =>
      let logicHit :=
        if families.logicWords then firstOutside safe (wordOccurrences Lexicon.logicWords t)
        else none
      match logicHit with
      | some w => .flagged .logicWord (String.ofList w)
      | none => .clean

/-- The marker of a base64 payload. -/
def base64Marker : String := ";base64"

/-- Whether the characters contain the word `w` as a contiguous part. -/
def containsPart (t w : List Char) : Bool :=
  (List.range (t.length + 1)).any fun i => (t.drop i).take w.length == w

/-- The guard's verdict on a text for the chosen families. -/
def inspect (text : String) (families : Families) : Verdict :=
  let t := trimChars text.toList
  let s := String.ofList t
  if t.isEmpty || Recognise.isEmail s || Recognise.isNumeric s then .clean
  else if containsPart (t.map Char.toLower) base64Marker.toList then
    if Recognise.isBase64DataUri s then .clean else .flagged .base64 base64Marker
  else searchFamilies t families

/-- Refuses a text that the guard flags for the chosen families. -/
def ensureSafe (text : String) (families : Families) : Except GuardError Unit :=
  (inspect text families).toCheck text

/-- Whether some text of a list is flagged. -/
def anyFlagged (texts : List String) (families : Families) : Bool :=
  texts.any fun t => (inspect t families).isFlagged

end Screen
end QueryShield
