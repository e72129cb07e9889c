import Mathlib
import QueryShield.Guard.Sample
import QueryShield.Proofs.Guard.Searches

/-!
# Choosing families is taking a union

The guard's families are independent tests: a text is flagged for a union of families exactly
when it is flagged for one of them (`Screen.inspect_union`).  The pre-filters and the base64
test come before the family searches and do not look at the families, and each family search
runs only when its family is chosen and flags the text on its own (`searchFamilies_isFlagged`),
so which family is searched first changes the reported hazard but never whether there is one.

A sample is flagged when one of its texts is, so the law lifts to every nesting of values
(`Sample.check_union`), and each narrow check of the guard is the disjunction of the
single-family checks it names.  With no family chosen only the base64 test is left: a sample is
flagged exactly when one of its texts, trimmed, is neither empty, nor an e-mail address, nor a
number, carries the marker `;base64` in any ASCII case, and is not a valid data URI
(`Sample.check_none_iff`).  The marker is looked for after lowering the case, so a text that
carries it only in capitals, such as `x;BASE64`, is flagged too
(`Sample.check_none_flags_capital_marker`).

Main statement: `Sample.check_families_union`.
-/

namespace QueryShield

namespace Families

@[simp] theorem union_symbols (F G : Families) : (F ||| G).symbols = (F.symbols || G.symbols) :=
  rfl

@[simp] theorem union_keywords (F G : Families) :
    (F ||| G).keywords = (F.keywords || G.keywords) := rfl

@[simp] theorem union_logicWords (F G : Families) :
    (F ||| G).logicWords = (F.logicWords || G.logicWords) := rfl

/-- Every family is the union of the three single ones. -/
theorem all_eq_union : all = onlySymbols ||| onlyKeywords ||| onlyLogicWords := rfl

end Families

namespace Screen

open Text

/-- The family searches flag a text for a union of families exactly when they flag it for one
of the two. -/
theorem searchFamilies_union (t : List Char) (F G : Families) :
    (searchFamilies t (F ||| G)).isFlagged =
      ((searchFamilies t F).isFlagged || (searchFamilies t G).isFlagged) := by
  -- each side is a disjunction over the three families of "chosen and found"
  apply Bool.eq_iff_iff.2
  simp only [searchFamilies_isFlagged, Bool.or_eq_true, Families.union_symbols,
    Families.union_keywords, Families.union_logicWords]
  tauto

/-- With no family chosen the searches find nothing. -/
theorem searchFamilies_none (t : List Char) : searchFamilies t Families.none = .clean := by
  simp [searchFamilies, Families.none]

/-- The guard flags a text for a union of families exactly when it flags it for one of the
two: the steps before the searches do not depend on the families. -/
theorem inspect_union (text : String) (F G : Families) :
    (inspect text (F ||| G)).isFlagged =
      ((inspect text F).isFlagged || (inspect text G).isFlagged) := by
  unfold inspect
  dsimp only
  split_ifs <;> simp [searchFamilies_union]

/-- With no family chosen the guard flags exactly the texts that carry the base64 marker, in
any ASCII case, and are not a valid data URI, once the empty texts, the e-mail addresses and
the numbers are let through. -/
theorem inspect_none_isFlagged (text : String) :
    (inspect text Families.none).isFlagged = true ↔
      trimChars text.toList ≠ [] ∧
      Recognise.isEmail (String.ofList (trimChars text.toList)) = false ∧
      Recognise.isNumeric (String.ofList (trimChars text.toList)) = false ∧
      containsPart ((trimChars text.toList).map Char.toLower) base64Marker.toList = true ∧
      Recognise.isBase64DataUri (String.ofList (trimChars text.toList)) = false := by
  unfold inspect
  dsimp only
  split_ifs with hpre hmark hdata
  · -- a pre-filter lets the text through
    simp only [Verdict.isFlagged, Bool.false_eq_true, false_iff]
    rintro ⟨hne, hemail, hnum, -⟩
    simp_all
  · simp_all [Verdict.isFlagged]
  · simp_all [Verdict.isFlagged]
  · simp_all [searchFamilies_none, Verdict.isFlagged]

end Screen

namespace Sample

/-- A check for a union of families is the disjunction of the two checks, whatever the
nesting of the sample. -/
theorem check_union (s : Sample) (F G : Families) :
    s.check (F ||| G) = (s.check F || s.check G) := by
  apply Bool.eq_iff_iff.2
  simp only [check_iff, Screen.inspect_union, Bool.or_eq_true]
  constructor
  · rintro ⟨t, ht, hF | hG⟩
    · exact .inl ⟨t, ht, hF⟩
    · exact .inr ⟨t, ht, hG⟩
  · rintro (⟨t, ht, hF⟩ | ⟨t, ht, hG⟩)
    · exact ⟨t, ht, .inl hF⟩
    · exact ⟨t, ht, .inr hG⟩

/-- With no family chosen a sample is flagged exactly when one of its texts carries the base64
marker, in any ASCII case, and is neither let through by a pre-filter nor a valid data URI. -/
theorem check_none_iff (s : Sample) :
    s.check Families.none = true ↔ ∃ t ∈ s.texts,
      Text.trimChars t.toList ≠ [] ∧
      Recognise.isEmail (String.ofList (Text.trimChars t.toList)) = false ∧
      Recognise.isNumeric (String.ofList (Text.trimChars t.toList)) = false ∧
      Screen.containsPart ((Text.trimChars t.toList).map Char.toLower)
        Screen.base64Marker.toList = true ∧
      Recognise.isBase64DataUri (String.ofList (Text.trimChars t.toList)) = false := by
  simp only [check_iff, Screen.inspect_none_isFlagged]

/-- Family checks over nested values: the check for a union of families is the disjunction of
the checks, a check flags exactly the samples one of whose texts (read depth first, the silent
leaves skipped) the guard flags, each narrow check is the disjunction of the single-family
checks it names, and with no family chosen only texts that carry the base64 marker, in any
ASCII case, and are not valid data URIs are flagged. -/
theorem check_families_union (s : Sample) :
    (∀ F G : Families, s.check (F ||| G) = (s.check F || s.check G)) ∧
    (∀ F : Families,
      s.check F = true ↔ ∃ t ∈ s.texts, (Screen.inspect t F).isFlagged = true) ∧
    s.check (Families.onlySymbols ||| Families.onlyKeywords) =
      (s.check Families.onlySymbols || s.check Families.onlyKeywords) ∧
    s.check (Families.onlySymbols ||| Families.onlyLogicWords) =
      (s.check Families.onlySymbols || s.check Families.onlyLogicWords) ∧
    s.check (Families.onlyKeywords ||| Families.onlyLogicWords) =
      (s.check Families.onlyKeywords || s.check Families.onlyLogicWords) ∧
    s.check Families.all =
      (s.check Families.onlySymbols || s.check Families.onlyKeywords ||
        s.check Families.onlyLogicWords) ∧
    (s.check Families.none = true ↔ ∃ t ∈ s.texts,
      Text.trimChars t.toList ≠ [] ∧
      Recognise.isEmail (String.ofList (Text.trimChars t.toList)) = false ∧
      Recognise.isNumeric (String.ofList (Text.trimChars t.toList)) = false ∧
      Screen.containsPart ((Text.trimChars t.toList).map Char.toLower)
        Screen.base64Marker.toList = true ∧
      Recognise.isBase64DataUri (String.ofList (Text.trimChars t.toList)) = false) := by
  refine ⟨check_union s, fun F => check_iff s F, check_union s _ _, check_union s _ _,
    check_union s _ _, ?_, check_none_iff s⟩
  rw [Families.all_eq_union, check_union, check_union]

/-- A text that carries the base64 marker only in capitals is flagged with no family chosen,
although it does not contain `;base64` as written. -/
theorem check_none_flags_capital_marker :
    (text "x;BASE64").check Families.none = true ∧ ¬ (";base64".toList <:+: "x;BASE64".toList) := by
  constructor
  · decide +kernel
  · decide

end Sample

end QueryShield
