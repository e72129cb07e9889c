import Mathlib
import QueryShield.Guard.Screen

/-!
# What the pre-filters let through

`Screen.inspect` lets three shapes of text through without searching them: an e-mail address,
a number and a base64 data URI.  Each recogniser needs a character that a plain word does not
have: an address has an `@` after its local part, a number starts with a minus sign or a
digit, and the base64 marker starts with `;`.  A text without them is judged by the family
searches alone (`Screen.inspect_eq_searchFamilies`).

The address is the case with an argument: each reading of a local part, with or without a
column name and an opening quote, ends at a suffix of the text, so the `@` that has to follow
it is a character of the text.
-/

namespace QueryShield
namespace Recognise

open Text

/-! ## Each reading ends at a suffix of the text -/

theorem afterColumnName_suffix {t r : List Char} (h : afterColumnName t = some r) :
    r <:+ t := by
  simp only [afterColumnName] at h
  split at h
  · cases h
  · split at h
    · rename_i rest hrest
      cases h
      have hnext : ('=' :: rest) <:+ t := by
        rw [← hrest]
        exact (List.dropWhile_suffix _).trans (List.drop_suffix _ _)
      exact (List.dropWhile_suffix _).trans ((List.suffix_cons _ _).trans hnext)
    · cases h

theorem localStarts_suffix {t r : List Char} (h : r ∈ localStarts t) : r <:+ t := by
  simp only [localStarts, List.mem_flatMap, List.mem_append, Option.mem_toList,
    List.mem_singleton] at h
  obtain ⟨s, hs, hr⟩ := h
  have hst : s <:+ t := by
    rcases hs with hs | rfl
    · exact afterColumnName_suffix hs
    · exact List.suffix_refl _
  refine List.IsSuffix.trans ?_ hst
  split at hr
  · split at hr
    · simp only [List.mem_cons, List.not_mem_nil, or_false] at hr
      rcases hr with rfl | rfl
      · exact List.suffix_cons _ _
      · exact List.suffix_refl _
    · simp only [List.mem_singleton] at hr
      exact hr ▸ List.suffix_refl _
  · simp only [List.mem_singleton] at hr
    exact hr ▸ List.suffix_refl _

theorem quotedBody_suffix {t body r : List Char} (h : quotedBody t = some (body, r)) :
    r <:+ t := by
  fun_induction quotedBody t generalizing body r with
  | case1 => cases h
  | case2 rest =>
    cases h
    exact List.suffix_cons _ _
  | case3 => cases h
  | case4 c rest _ ih =>
    obtain ⟨⟨b, r'⟩, hq, he⟩ := Option.map_eq_some_iff.1 h
    simp only [Prod.mk.injEq] at he
    obtain ⟨-, rfl⟩ := he
    exact (ih hq).trans ((List.suffix_cons _ _).trans (List.suffix_cons _ _))
  | case5 => cases h
  | case6 c rest _ _ _ ih =>
    obtain ⟨⟨b, r'⟩, hq, he⟩ := Option.map_eq_some_iff.1 h
    simp only [Prod.mk.injEq] at he
    obtain ⟨-, rfl⟩ := he
    exact (ih hq).trans (List.suffix_cons _ _)

theorem dottedAtoms_suffix (t : List Char) : (dottedAtoms t).2 <:+ t := by
  fun_induction dottedAtoms t with
  | case1 c rest _ more body r hdot ih =>
    rw [hdot] at ih
    exact ih.trans ((List.drop_suffix _ _).trans (List.suffix_cons _ _))
  | case2 => exact List.suffix_refl _
  | case3 => exact List.suffix_refl _

theorem quotedLocal_suffix {t loc r : List Char} (h : quotedLocal t = some (loc, r)) :
    r <:+ t := by
  unfold quotedLocal at h
  split at h
  · split at h
    · rename_i body r' hq
      split at h
      · cases h
      · cases h
        exact (quotedBody_suffix hq).trans (List.suffix_cons _ _)
    · cases h
  · cases h

theorem atomLocal_suffix {t loc r : List Char} (h : atomLocal t = some (loc, r)) :
    r <:+ t := by
  simp only [atomLocal] at h
  split at h
  · cases h
  · cases h
    exact (dottedAtoms_suffix _).trans (List.drop_suffix _ _)

theorem localReadings_suffix {t : List Char} {x : List Char × List Char}
    (h : x ∈ localReadings t) : x.2 <:+ t := by
  simp only [localReadings, List.mem_append, Option.mem_toList] at h
  rcases h with h | h
  · exact quotedLocal_suffix h
  · exact atomLocal_suffix h

/-- The text of an address holds the `@` that ends its local part. -/
theorem at_mem_of_addressLocal {t loc : List Char} (h : addressLocal? t = some loc) :
    '@' ∈ t := by
  obtain ⟨⟨l, rest⟩, hmem, hsome⟩ := List.exists_of_findSome?_eq_some h
  simp only [List.mem_flatMap] at hmem
  obtain ⟨s, hs, hread⟩ := hmem
  have hsuf : rest <:+ t := (localReadings_suffix hread).trans (localStarts_suffix hs)
  dsimp only at hsome
  split at hsome
  · exact hsuf.subset List.mem_cons_self
  · cases hsome

end Recognise

namespace Text

theorem dropWhile_blank_eq_self {cs : List Char} (h : ∀ c ∈ cs, isBlank c = false) :
    cs.dropWhile isBlank = cs :=
  List.dropWhile_eq_self_iff.2 fun hl => by simp [h _ (List.getElem_mem hl)]

/-- A text with no blank character is its own trimming. -/
theorem trimChars_eq_self {cs : List Char} (h : ∀ c ∈ cs, isBlank c = false) :
    trimChars cs = cs := by
  have hrev : ∀ c ∈ cs.reverse, isBlank c = false := fun c hc => h c (List.mem_reverse.1 hc)
  rw [trimChars, dropWhile_blank_eq_self h, dropWhile_blank_eq_self hrev, List.reverse_reverse]

theorem trimChars_subset (cs : List Char) : trimChars cs ⊆ cs := by
  intro c hc
  rw [trimChars, List.mem_reverse] at hc
  exact (List.dropWhile_sublist _).subset
    (List.mem_reverse.1 ((List.dropWhile_sublist _).subset hc))

end Text

namespace Recognise

open Text

theorem at_mem_of_isEmail {s : String} (h : isEmail s = true) : '@' ∈ s.toList := by
  simp only [isEmail] at h
  split at h
  · rename_i loc hloc
    exact trimChars_subset _ (at_mem_of_addressLocal hloc)
  · cases h

/-- A text that starts, once trimmed, with neither a minus sign nor a digit is no number. -/
theorem isNumeric_eq_false {s : String}
    (h : ∀ c ∈ (trimChars s.toList).head?, c ≠ '-' ∧ isDecimalDigit c = false) :
    isNumeric s = false := by
  unfold isNumeric
  generalize trimChars s.toList = t at h ⊢
  cases t with
  | nil => rfl
  | cons c rest =>
    obtain ⟨hc, hd⟩ := h c rfl
    have hrun : digitRun (c :: rest) = none := by simp [digitRun, hd]
    -- the text is not stripped of a minus sign, so its digit run is that of `c :: rest`
    dsimp only
    split <;> try rfl
    all_goals
      rename_i hrun'
      split at hrun'
      · rename_i hdash
        exact absurd (List.cons.inj hdash).1 hc
      · rw [hrun] at hrun'
        cases hrun'

end Recognise

namespace Screen

open Text

theorem subset_of_containsPart {t w : List Char} (h : containsPart t w = true) : w ⊆ t := by
  simp only [containsPart, List.any_eq_true, beq_iff_eq] at h
  obtain ⟨i, -, hi⟩ := h
  intro c hc
  rw [← hi] at hc
  exact List.mem_of_mem_drop (List.mem_of_mem_take hc)

/-- A non-empty text with no blank, no `@`, no character that lower-cases to `;` and a first
character that is neither a minus sign nor a digit is judged by the family searches alone. -/
theorem inspect_eq_searchFamilies {t : List Char} (ht : t ≠ [])
    (hblank : ∀ c ∈ t, isBlank c = false) (hat : '@' ∉ t) (hsemi : ∀ c ∈ t, c.toLower ≠ ';')
    (hhead : ∀ c ∈ t.head?, c ≠ '-' ∧ isDecimalDigit c = false) (families : Families) :
    inspect (String.ofList t) families = searchFamilies t families := by
  have htrim : trimChars t = t := trimChars_eq_self hblank
  have hemail : Recognise.isEmail (String.ofList t) = false := by
    cases he : Recognise.isEmail (String.ofList t)
    · rfl
    · exact absurd (by simpa using Recognise.at_mem_of_isEmail he) hat
  have hnum : Recognise.isNumeric (String.ofList t) = false :=
    Recognise.isNumeric_eq_false (by simpa [htrim] using hhead)
  have hmark : containsPart (t.map Char.toLower) base64Marker.toList = false := by
    cases hm : containsPart (t.map Char.toLower) base64Marker.toList
    · rfl
    · have hsemi' : ';' ∈ base64Marker.toList := by simp [base64Marker]
      obtain ⟨c, hc, hlow⟩ := List.mem_map.1 (subset_of_containsPart hm hsemi')
      exact absurd hlow (hsemi c hc)
  simp [inspect, htrim, hemail, hnum, hmark, ht]

end Screen
end QueryShield
