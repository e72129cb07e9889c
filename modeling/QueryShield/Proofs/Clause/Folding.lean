import Mathlib
import QueryShield.Proofs.Clause.Lexemes
import QueryShield.Proofs.Ddl.TriggerCheck

/-!
# Case folding and connectives

The lexer compares words with its connectives ignoring case, and it folds two characters
beyond ASCII as well: the Kelvin sign reads as `k`, the long s as `s`.  `foldKey` is that
folding as a function, so that "equal ignoring case" becomes an equation of lists
(`foldEq_iff`, `foldEqWord_iff`, `foldPrefix_iff`).

With it, two facts about connectives are proved here:

* a word that may start a name, standing between non-word characters, is read as a connective
  exactly when it folds to one (`Lex.connectiveLength_word`);
* a text whose first word folds to a connective never passes the screen's keyword search:
  connectives are reserved words, and no safe phrase starts with one
  (`Screen.searchFamilies_connective_run`).
-/

namespace QueryShield
namespace Text

/-- The character a character folds to: the Kelvin sign to `k`, the long s to `s`, and every
other character to its ASCII lower case. -/
def foldKey (c : Char) : Char := if c = '\u212A' then 'k' else if c = '\u017F' then 's' else c.toLower

theorem toLower_eq_self_of_ge {c : Char} (hc : ¬ c.toNat < 128) : c.toLower = c := by
  apply Char.toLower_eq_of_not_isUpper
  intro hup
  exact hc (Lex.toNat_lt_of_isUpper hup)

/-- Comparing a character with an ASCII character up to case folding compares their fold
keys. -/
theorem foldEq_iff {c a : Char} (ha : a.toNat < 128) : foldEq c a = true ↔ foldKey c = a.toLower := by
  by_cases hc : c.toNat < 128
  · -- within ASCII folding is lower-casing, and equal characters have equal lower cases
    have hk : c ≠ '\u212A' := fun h => absurd (h ▸ hc) (by decide)
    have hs : c ≠ '\u017F' := fun h => absurd (h ▸ hc) (by decide)
    simp only [foldEq, foldKey, hk, hs, if_false, hc, decide_true, Bool.and_true, Bool.or_eq_true,
      Bool.and_eq_true, beq_iff_eq, and_false, or_false]
    exact ⟨fun h => h.elim (congrArg Char.toLower) id, Or.inr⟩
  · -- beyond ASCII only the Kelvin sign and the long s fold to a letter
    have hlow := toLower_eq_self_of_ge hc
    have hne : (c == a) = false := by
      rw [beq_eq_false_iff_ne]
      exact fun h => hc (h ▸ ha)
    have hlowa : a.toLower.toNat < 128 :=
      Lex.ascii_forall (fun a => a.toLower.toNat < 128) (by decide) ha
    have hwide : decide (c.toNat < 0x80) = false := by simpa using hc
    have heq : foldEq c a = ((a.toLower == 'k' && c == '\u212A') || (a.toLower == 's' && c == '\u017F')) := by
      simp only [foldEq, hne, hwide, Bool.and_false, Bool.false_or]
    rw [heq]
    unfold foldKey
    by_cases hk : c = '\u212A'
    · subst hk
      have hks : ('\u212A' == '\u017F') = false := by decide
      simp only [beq_self_eq_true, Bool.and_true, hks, Bool.and_false, Bool.or_false, if_true,
        beq_iff_eq]
      exact eq_comm
    · by_cases hs : c = '\u017F'
      · subst hs
        have hsk : ('\u017F' == '\u212A') = false := by decide
        simp only [hsk, Bool.and_false, beq_self_eq_true, Bool.and_true, Bool.false_or, if_true,
          beq_iff_eq]
        exact eq_comm
      · have hk' : (c == '\u212A') = false := by simpa using hk
        have hs' : (c == '\u017F') = false := by simpa using hs
        simp only [hk', hs', Bool.and_false, Bool.or_false, hk, hs, if_false, hlow,
          Bool.false_eq_true, false_iff]
        intro h
        exact hc (h ▸ hlowa)

theorem foldEqWord_iff {u k : List Char} (hk : ∀ a ∈ k, a.toNat < 128) :
    foldEqWord u k = true ↔ u.map foldKey = k.map Char.toLower := by
  induction u generalizing k with
  | nil => cases k <;> simp [foldEqWord]
  | cons c u ih =>
    cases k with
    | nil => simp [foldEqWord]
    | cons a k =>
      simp only [foldEqWord, Bool.and_eq_true, List.map_cons, List.cons.injEq]
      rw [foldEq_iff (hk a (by simp)), ih fun a' ha' => hk a' (by simp [ha'])]

theorem foldPrefix_iff {t k : List Char} (hk : ∀ a ∈ k, a.toNat < 128) :
    foldPrefix t k = true ↔ k.length ≤ t.length ∧ (t.take k.length).map foldKey = k.map Char.toLower := by
  induction k generalizing t with
  | nil => simp [foldPrefix]
  | cons a k ih =>
    cases t with
    | nil => simp [foldPrefix]
    | cons c t =>
      simp only [foldPrefix, Bool.and_eq_true, List.length_cons, List.take_succ_cons,
        List.map_cons, List.cons.injEq, Nat.add_le_add_iff_right]
      rw [foldEq_iff (hk a (by simp)), ih fun a' ha' => hk a' (by simp [ha'])]
      tauto

/-- A character that folds to an ASCII letter may start a name. -/
theorem isNameStart_of_foldKey {c a : Char} (ha : a.isLower = true) (h : foldKey c = a) :
    Lex.isNameStart c = true := by
  by_cases hc : c.toNat < 128
  · have hlow : foldKey c = c.toLower := by
      have hk : c ≠ '\u212A' := fun h => absurd (h ▸ hc) (by decide)
      have hs : c ≠ '\u017F' := fun h => absurd (h ▸ hc) (by decide)
      simp only [foldKey, hk, hs, if_false]
    exact Lex.ascii_forall (fun c => c.toLower.isLower = true → Lex.isNameStart c = true)
      (by decide) hc (hlow ▸ h ▸ ha)
  · unfold foldKey at h
    by_cases hk : c = '\u212A'
    · subst hk; decide
    · by_cases hs : c = '\u017F'
      · subst hs; decide
      · simp only [hk, hs, if_false, toLower_eq_self_of_ge hc] at h
        exact absurd (h ▸ Lex.toNat_lt_of_isLower ha) hc

theorem foldKey_toUpper (c : Char) : foldKey c.toUpper = foldKey c := by
  by_cases h : c.toNat < 128
  · exact Lex.ascii_forall (fun c => foldKey c.toUpper = foldKey c) (by decide) h
  · rw [Char.toUpper_eq_of_not_isLower fun hl => h (Lex.toNat_lt_of_isLower hl)]

theorem asciiLower_asciiUpper (w : String) : asciiLower (asciiUpper w) = asciiLower w := by
  rw [asciiLower, asciiLower, asciiUpper, ← String.toList_inj, String.toList_map,
    String.toList_map, String.toList_map, List.map_map]
  exact List.map_congr_left fun c _ => Char.toLower_toUpper_eq_toLower c

end Text

namespace Lexicon

theorem isClauseWord_asciiUpper (w : String) : isClauseWord (Text.asciiUpper w) = isClauseWord w := by
  simp only [isClauseWord, memIgnoreCase, Text.eqIgnoreAsciiCase, Text.asciiLower_asciiUpper]

end Lexicon

namespace Lex

open Text

/-! ## Connectives -/

theorem isWordChar_of_isNameStart {c : Char} (h : isNameStart c = true) : isWordChar c = true := by
  rcases isNameChar_cases (isNameChar_of_isNameStart h) with hc | rfl | rfl
  · exact ascii_forall (fun c => isNameStart c = true → isWordChar c = true) (by decide) hc h
  -- the two letters beyond ASCII are looked up in the table of word characters
  · set_option maxRecDepth 4000 in decide
  · set_option maxRecDepth 4000 in decide

theorem connectives_letters :
    ∀ k ∈ connectives, k.toList ≠ [] ∧ ∀ a ∈ k.toList, a.toNat < 128 ∧ a.toLower.isLower = true := by
  simp [connectives]

/-- What a connective found at the start of a text looks like: its characters fold to the
connective, may start a name, and are followed by no word character. -/
theorem connective_match {t : List Char} {k : String} (hk : k ∈ connectives)
    (h : (foldPrefix t k.toList && boundary ((t.take k.length).getLast?) (t.drop k.length)) = true) :
    (t.take k.length).map foldKey = k.toList.map Char.toLower ∧ k.length ≤ t.length ∧
      (∀ c ∈ t.take k.length, isNameStart c = true) ∧
      ∀ c ∈ (t.drop k.length).head?, isWordChar c = false := by
  obtain ⟨hne, hletters⟩ := connectives_letters k hk
  rw [Bool.and_eq_true] at h
  obtain ⟨hlen, hmap⟩ := (foldPrefix_iff fun a ha => (hletters a ha).1).1 h.1
  rw [String.length_toList] at hlen hmap
  have hstart : ∀ c ∈ t.take k.length, isNameStart c = true := by
    intro c hc
    obtain ⟨i, hi, rfl⟩ := List.getElem_of_mem hc
    have hi' : i < k.toList.length := by
      rw [String.length_toList]
      simp only [List.length_take] at hi
      omega
    have hkey := congrArg (fun l => l[i]?) hmap
    simp only [List.getElem?_map, List.getElem?_eq_getElem hi, List.getElem?_eq_getElem hi',
      Option.map_some, Option.some.injEq] at hkey
    exact isNameStart_of_foldKey (hletters _ (List.getElem_mem hi')).2 hkey
  refine ⟨hmap, hlen, hstart, ?_⟩
  intro c hc
  have hb := h.2
  have hlast : ((t.take k.length).getLast?.map isWordChar).getD false = true := by
    have hpos : 0 < k.length := by
      rw [← String.length_toList]; exact List.length_pos_of_ne_nil hne
    obtain ⟨d, hd⟩ : ∃ d, (t.take k.length).getLast? = some d := by
      apply Option.isSome_iff_exists.1
      apply List.getLast?_isSome.2
      simp only [ne_eq, List.take_eq_nil_iff, not_or]
      refine ⟨by omega, fun ht => ?_⟩
      simp only [ht, List.length_nil] at hlen
      omega
    rw [hd]
    exact isWordChar_of_isNameStart (hstart d (List.mem_of_getLast? hd))
  simp only [boundary, hlast, bne_iff_ne, ne_eq] at hb
  rw [hc] at hb
  simpa using hb

/-- A connective found at the start of a text folds to one of the connectives. -/
theorem connectiveLength_some {prev : Option Char} {t : List Char} {m : Nat}
    (h : connectiveLength prev t = some m) :
    ∃ k ∈ connectives, m = k.length ∧ (t.take m).map foldKey = k.toList.map Char.toLower := by
  unfold connectiveLength at h
  split at h
  · cases h
  · obtain ⟨k, hk, hsome⟩ := List.exists_of_findSome?_eq_some h
    dsimp only at hsome
    split at hsome
    · rename_i hcond
      cases hsome
      exact ⟨k, hk, rfl, (connective_match hk hcond).1⟩
    · cases hsome

/-- A search whose test agrees, on the list, with a guard is the first element passing the
guard. -/
theorem findSome_eq_find {α β : Type} {l : List α} {g : α → Option β} {p : α → Bool} {f : α → β}
    (h : ∀ a ∈ l, g a = if p a = true then some (f a) else none) :
    l.findSome? g = (l.find? p).map f := by
  induction l with
  | nil => rfl
  | cons a l ih =>
    have ih' := ih fun b hb => h b (by simp [hb])
    by_cases hp : p a = true
    · simp [List.findSome?, List.find?, h a (by simp), hp]
    · simp [List.findSome?, List.find?, h a (by simp), hp, ih']

theorem boundary_word_start {prev : Option Char} {c : Char} {t : List Char}
    (hprev : ∀ d ∈ prev, isWordChar d = false) (hc : isWordChar c = true) :
    boundary prev (c :: t) = true := by
  cases prev with
  | none => simp [boundary, hc]
  | some d => simp [boundary, hprev d rfl, hc]

/-- A word that may start a name, standing after no word character and before a separator, is
read as a connective exactly when it folds to one. -/
theorem connectiveLength_word {prev : Option Char} {w rest : List Char}
    (hprev : ∀ d ∈ prev, isWordChar d = false) (hne : w ≠ []) (hw : ∀ c ∈ w, isNameStart c = true)
    (hrest : ∀ c ∈ rest.head?, isWordChar c = false ∧ isNameStart c = false) :
    connectiveLength prev (w ++ rest) =
      (connectives.find? fun k => w.map foldKey == k.toList.map Char.toLower).map String.length := by
  obtain ⟨c, w', rfl⟩ := List.exists_cons_of_ne_nil hne
  unfold connectiveLength
  rw [List.cons_append, boundary_word_start hprev (isWordChar_of_isNameStart (hw c (by simp))),
    Bool.not_true, if_neg (by decide), ← List.cons_append]
  refine findSome_eq_find fun k hk => ?_
  -- the connective found is exactly as long as the word
  have hcond : (foldPrefix ((c :: w') ++ rest) k.toList &&
      boundary (((c :: w') ++ rest).take k.length).getLast? (((c :: w') ++ rest).drop k.length)) =
      (List.map foldKey (c :: w') == k.toList.map Char.toLower) := by
    obtain ⟨hkne, hletters⟩ := connectives_letters k hk
    set w := c :: w' with hw'
    apply Bool.eq_iff_iff.2
    rw [beq_iff_eq]
    constructor
    · intro h
      obtain ⟨hmap, hlen, hstart, hnext⟩ := connective_match hk h
      have hklen : k.length = w.length := by
        rcases Nat.lt_trichotomy k.length w.length with hlt | heq | hgt
        · -- the connective would stop inside the word
          have hdrop : (w ++ rest).drop k.length = w.drop k.length ++ rest :=
            List.drop_append_of_le_length hlt.le
          obtain ⟨d, hd⟩ : ∃ d, (w.drop k.length).head? = some d := by
            apply Option.isSome_iff_exists.1
            simp only [List.isSome_head?, ne_eq, List.drop_eq_nil_iff, not_le]
            exact hlt
          have hword := isWordChar_of_isNameStart (hw d (by
            rw [List.head?_drop] at hd
            exact List.mem_of_getElem? hd))
          have := hnext d (by rw [hdrop, List.head?_append, hd]; rfl)
          rw [hword] at this
          exact absurd this (by decide)
        · exact heq
        · -- the connective would take the first separator
          obtain ⟨d, rest', rfl⟩ : ∃ d rest', rest = d :: rest' := by
            cases rest with
            | nil => simp at hlen; omega
            | cons d rest' => exact ⟨d, rest', rfl⟩
          have hmem : d ∈ (w ++ d :: rest').take k.length := by
            rw [List.take_append, List.take_of_length_le (by omega)]
            apply List.mem_append_right
            rw [show k.length - w.length = (k.length - w.length - 1) + 1 by omega]
            simp
          have := (hrest d rfl).2
          rw [hstart d hmem] at this
          exact absurd this (by decide)
      rw [hklen, List.take_left] at hmap
      exact hmap
    · intro h
      have hklen : w.length = k.length := by
        have := congrArg List.length h
        simpa [String.length_toList] using this
      have hpre : foldPrefix (w ++ rest) k.toList = true := by
        rw [foldPrefix_iff fun a ha => (hletters a ha).1, String.length_toList, ← hklen,
          List.take_left]
        exact ⟨by simp, h⟩
      rw [← hklen, List.take_left, List.drop_left, hpre, Bool.true_and]
      -- the word ends with a word character and a separator follows
      obtain ⟨d, hd⟩ : ∃ d, w.getLast? = some d := by
        apply Option.isSome_iff_exists.1
        exact List.getLast?_isSome.2 (by simp [hw'])
      have hlast := isWordChar_of_isNameStart (hw d (List.mem_of_getLast? hd))
      cases rest with
      | nil => simp [boundary, hd, hlast]
      | cons e rest => simp [boundary, hd, hlast, (hrest e rfl).1]
  simp only [hcond]

end Lex

namespace Screen

open Text QueryShield.Lex

/-! ## Connectives under the keyword search -/

theorem connectives_reserved : ∀ k ∈ connectives,
    String.ofList (k.toList.map Char.toLower) ∈ Lexicon.reservedWords ∧
      String.ofList (k.toList.map Char.toLower) ∉ Lexicon.statementWords := by
  simp only [connectives, List.mem_cons, List.not_mem_nil, or_false, forall_eq_or_imp, forall_eq]
  decide

/-- The safe phrases, as the screen spells them. -/
theorem safe_phrases_not_connectives : ∀ k ∈ connectives,
    ∀ x ∈ ["order", "selective", "unionized"], x.toList.length ≤ k.toList.length →
      (k.toList.map Char.toLower).take x.toList.length ≠ x.toList := by
  simp [connectives]

theorem safe_phrases_lower : ∀ x ∈ ["order", "selective", "unionized"],
    x.toList.map Char.toLower = x.toList ∧ ∀ a ∈ x.toList, a.isLower = true ∧ a.toNat < 128 := by
  simp

/-- A run of word characters that folds to a connective and stands at the start of a text
starts no safe phrase. -/
theorem foldPrefix_connective_run {u v : List Char} {k : String} (hk : k ∈ connectives)
    (hu : u.map foldKey = k.toList.map Char.toLower)
    (hv : ∀ c ∈ v.head?, isWordChar c = false) {x : String}
    (hx : x ∈ ["order", "selective", "unionized"]) : foldPrefix (u ++ v) x.toList = false := by
  obtain ⟨hxlow, hletters⟩ := safe_phrases_lower x hx
  rw [Bool.eq_false_iff]
  intro hpre
  obtain ⟨hlen, hmap⟩ := (foldPrefix_iff fun a ha => (hletters a ha).2).1 hpre
  rw [hxlow] at hmap
  have hulen : u.length = k.toList.length := by simpa using congrArg List.length hu
  by_cases hshort : x.toList.length ≤ u.length
  · -- the phrase would be a prefix of the connective
    rw [List.take_append_of_le_length hshort, List.map_take, hu] at hmap
    exact safe_phrases_not_connectives k hk x hx (hulen ▸ hshort) hmap
  · -- the phrase would reach the character after the run, which is no letter
    obtain ⟨d, v', rfl⟩ : ∃ d v', v = d :: v' := by
      cases v with
      | nil => simp at hlen; omega
      | cons d v' => exact ⟨d, v', rfl⟩
    have hi : u.length < x.toList.length := by omega
    have hkey := congrArg (fun l => l[u.length]?) hmap
    simp only [List.getElem?_map, List.getElem?_take, if_pos hi, List.getElem?_append_right le_rfl,
      Nat.sub_self, List.getElem?_cons_zero, Option.map_some, List.getElem?_eq_getElem hi] at hkey
    have hstart := isNameStart_of_foldKey (hletters _ (List.getElem_mem hi)).1 (Option.some.inj hkey)
    have := hv d rfl
    rw [isWordChar_of_isNameStart hstart] at this
    exact absurd this (by decide)

theorem safePhraseLength_connective_run {u v : List Char} {k : String} (hk : k ∈ connectives)
    (hu : u.map foldKey = k.toList.map Char.toLower) (hv : ∀ c ∈ v.head?, isWordChar c = false) :
    safePhraseLength (u ++ v) = none := by
  have horder := foldPrefix_connective_run hk hu hv (x := "order") (by simp)
  have hsel := foldPrefix_connective_run hk hu hv (x := "selective") (by simp)
  have huni := foldPrefix_connective_run hk hu hv (x := "unionized") (by simp)
  have hob : orderByLength (u ++ v) = none := by
    rw [orderByLength, horder]
    rfl
  rw [safePhraseLength, hob]
  simp only [hsel, huni]
  rfl

theorem safeSpans_go_start (t : List Char) (i : Nat) : ∀ s ∈ safeSpans.go t i, i ≤ s.start := by
  fun_induction safeSpans.go t i with
  | case1 i => simp
  | case2 c cs i n hn ih =>
    intro s hs
    rcases List.mem_cons.1 hs with rfl | hs
    · exact le_rfl
    · have := ih s hs
      omega
  | case3 c cs i hn ih =>
    intro s hs
    have := ih s hs
    omega

theorem wordRuns_go_word {u : List Char} (hne : u ≠ []) (hu : ∀ c ∈ u, isWordChar c = true)
    (i : Nat) : wordRuns.go u i = [(⟨i, i + u.length⟩, u)] := by
  obtain ⟨c, cs, rfl⟩ := List.exists_cons_of_ne_nil hne
  have hcs : cs.takeWhile isWordChar = cs := List.takeWhile_eq_self_iff.2 fun d hd => hu d (by simp [hd])
  rw [wordRuns.go, if_pos (hu c (by simp))]
  simp only [hcs, List.drop_length, List.length_cons]
  rw [wordRuns.go]
  simp only [List.cons.injEq, Prod.mk.injEq, Span.mk.injEq, and_true]
  exact ⟨trivial, by omega⟩

/-- A text whose first word folds to a connective is never clean under the keyword search:
connectives are reserved words, and no safe phrase starts with one. -/
theorem searchFamilies_connective_run {u v : List Char} {k : String} (hk : k ∈ connectives)
    (hu : u.map foldKey = k.toList.map Char.toLower) (hne : u ≠ [])
    (hword : ∀ c ∈ u, isWordChar c = true) (hv : ∀ c ∈ v.head?, isWordChar c = false) :
    searchFamilies (u ++ v) Families.symbolsAndKeywords ≠ .clean := by
  obtain ⟨hres, hstmt⟩ := connectives_reserved k hk
  have hruns : wordRuns (u ++ v) = (⟨0, u.length⟩, u) :: wordRuns.go v u.length := by
    rw [wordRuns, wordRuns_go_append hv, wordRuns_go_word hne hword]
    simp
  have hfamily : (Lexicon.keywordFamilyWords.any fun w => foldEqWord u w.toList) = true := by
    rw [List.any_eq_true]
    refine ⟨String.ofList (k.toList.map Char.toLower), ?_, ?_⟩
    · exact List.mem_append_right _ (List.mem_filter.2 ⟨hres, by simpa using hstmt⟩)
    · obtain ⟨-, hletters⟩ := connectives_letters k hk
      have hascii : ∀ a ∈ (String.ofList (k.toList.map Char.toLower)).toList, a.toNat < 128 := by
        intro a ha
        simp only [String.toList_ofList, List.mem_map] at ha
        obtain ⟨b, hb, rfl⟩ := ha
        exact ascii_forall (fun b => b.toLower.toNat < 128) (by decide) (hletters b hb).1
      rw [foldEqWord_iff hascii, hu, String.toList_ofList, List.map_map]
      simp [Function.comp_def, Char.toLower_toLower_eq_toLower]
  have hsafe : ∀ s ∈ safeSpans (u ++ v), 1 ≤ s.start := by
    obtain ⟨c, cs, rfl⟩ := List.exists_cons_of_ne_nil hne
    intro s hs
    have hnone := safePhraseLength_connective_run hk hu hv
    rw [List.cons_append] at hnone
    rw [safeSpans, List.cons_append, safeSpans.go, hnone] at hs
    exact safeSpans_go_start _ _ s hs
  have hfirst : firstOutside (safeSpans (u ++ v))
      (wordOccurrences Lexicon.keywordFamilyWords (u ++ v)) = some u := by
    have hout : (!(safeSpans (u ++ v)).any (Span.within ⟨0, u.length⟩)) = true := by
      simp only [Bool.not_eq_eq_eq_not, Bool.not_true, List.any_eq_false]
      intro s hs
      have := hsafe s hs
      simp [Span.within]
      omega
    simp [firstOutside, wordOccurrences, hruns, hfamily, hout]
  intro hclean
  unfold searchFamilies at hclean
  simp only [Families.symbolsAndKeywords, if_true, hfirst] at hclean
  split at hclean <;> simp_all

end Screen
end QueryShield
