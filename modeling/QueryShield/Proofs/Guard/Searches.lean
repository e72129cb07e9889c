import Mathlib
import QueryShield.Proofs.Clause.Folding
import QueryShield.Proofs.Guard.Prefilters

/-!
# What the family searches find

`Screen.searchFamilies` reads a text three ways: hazard symbols, whole words, and the safe
phrases whose spans mask what lies inside them.  Each reading is characterised here.

* Read through `phraseKey` (a blank as a space, any other character by its fold key), a safe
  span of the text is one of `phraseForms`, found at its place (`safePhraseLength_spec`,
  `mem_safeSpans_go`).
* The symbol scan finds an occurrence exactly when a hazard symbol stands in the text
  (`symbolOccurrences_go_ne_nil_iff`), and the word runs are exactly the whole words of the
  text (`mem_wordRuns_iff`).
* A safe phrase is made of letters and blanks, so no symbol lies inside a safe span
  (`symbol_not_within`), and a whole word inside one is a word of a safe phrase
  (`wholeWord_within_safe`): of the words the screen looks for, only `order`, `by`, `asc` and
  `desc` can be masked (`masked_word_mem`).

Together these give the verdict of `Screen.inspect` on a text that no pre-filter decides:
flagged exactly when a chosen family has a hazard symbol, or an unmasked whole word of its
list, in the trimmed text (`inspect_flagged_iff_family_hit`).
-/

namespace QueryShield
namespace Screen

open Text

/-! ## Reading a safe phrase -/

/-- A character as the safe phrases read it: a blank as a space, any other character by its
fold key. -/
def phraseKey (c : Char) : Char := if isBlank c then ' ' else foldKey c

/-- The safe phrases as `phraseKey` reads them: `order by` with or without the blank between the
words, with or without a blank and `asc` or `desc` after them, then `selective` and
`unionized`. -/
def phraseForms : List String := [
  "orderby", "orderbyasc", "orderbydesc", "orderby ", "orderby asc", "orderby desc",
  "order by", "order byasc", "order bydesc", "order by ", "order by asc", "order by desc",
  "selective", "unionized"]

/-- The words of the safe phrases, the runs without a space of `phraseForms`. -/
def phraseWords : List String :=
  ["order", "by", "asc", "desc", "orderby", "byasc", "bydesc", "orderbyasc", "orderbydesc",
    "selective", "unionized"]

/-- The letters of the safe phrases. -/
def phraseLetters : List Char := ['a', 'b', 'c', 'd', 'e', 'i', 'l', 'n', 'o', 'r', 's', 't', 'u', 'v', 'y', 'z']

theorem phraseLetters_lower : ∀ a ∈ phraseLetters, a.isLower = true := by
  simp [phraseLetters, Char.isLower]

/-- Whether `m` characters from `j` on are a maximal run without a space of `F`. -/
def isSegment (F : List Char) (j m : Nat) : Bool :=
  0 < m && j + m ≤ F.length && (j == 0 || F[j - 1]? == some ' ') &&
    (j + m == F.length || F[j + m]? == some ' ') && !((F.drop j).take m).contains ' '

set_option maxRecDepth 20000 in
/-- A maximal run without a space of a safe phrase is one of its words. -/
theorem phraseForms_segments : ∀ F ∈ phraseForms.map String.toList, ∀ j ∈ List.range (F.length + 1),
    ∀ m ∈ List.range (F.length + 1), isSegment F j m = true →
    (F.drop j).take m ∈ phraseWords.map String.toList := by
  decide

/-- A safe phrase, as `phraseKey` reads it, is made of spaces and the phrase letters. -/
theorem phraseForms_chars {F : List Char} (hF : F ∈ phraseForms.map String.toList) {c : Char}
    (hc : c ∈ F) : c = ' ' ∨ c ∈ phraseLetters := by
  have hall : (phraseForms.map String.toList).all
      (fun F => F.all fun c => c == ' ' || phraseLetters.contains c) = true := by
    rfl
  have := List.all_eq_true.1 (List.all_eq_true.1 hall F hF) c hc
  simpa using this

theorem not_blank_of_foldKey_isLower {c : Char} (h : (foldKey c).isLower = true) :
    isBlank c = false := by
  by_cases hc : c.toNat < 128
  · exact Lex.ascii_forall (fun c => (foldKey c).isLower = true → isBlank c = false) (by decide) hc h
  · by_cases hk : c = '\u212A'
    · subst hk; decide
    · by_cases hs : c = '\u017F'
      · subst hs; decide
      · simp only [foldKey, hk, hs, if_false, toLower_eq_self_of_ge hc] at h
        exact absurd (Lex.toNat_lt_of_isLower h) hc

theorem phraseKey_eq_foldKey {c : Char} (h : (foldKey c).isLower = true) : phraseKey c = foldKey c := by
  delta phraseKey
  simp [not_blank_of_foldKey_isLower h]

theorem isWordChar_of_isBlank {c : Char} (h : isBlank c = true) : isWordChar c = false := by
  by_cases hc : c.toNat < 128
  · exact Lex.ascii_forall (fun c => isBlank c = true → isWordChar c = false) (by decide) hc h
  · -- the blanks beyond ASCII are two dozen code points, none of them in a word range
    have hw : ∀ n, 128 ≤ n → inRanges blankRanges n = true → inRanges wordRanges n = false := by
      intro n hn hb
      obtain ⟨r, hr, h1, h2⟩ := (inRanges_iff _ _).1 hb
      simp only [blankRanges, List.mem_cons, List.not_mem_nil, or_false] at hr
      rcases hr with rfl | rfl | rfl | rfl | rfl | rfl | rfl | rfl | rfl | rfl <;>
        dsimp only at h1 h2 <;> interval_cases n <;> set_option maxRecDepth 4000 in decide
    simp only [isWordChar, if_neg hc]
    exact hw _ (by omega) h

theorem foldKey_eq_space {c : Char} (h : foldKey c = ' ') : c = ' ' := by
  by_cases hc : c.toNat < 128
  · exact Lex.ascii_forall (fun c => foldKey c = ' ' → c = ' ') (by decide) hc h
  · by_cases hk : c = '\u212A'
    · subst hk; exact absurd h (by decide)
    · by_cases hs : c = '\u017F'
      · subst hs; exact absurd h (by decide)
      · simp only [foldKey, hk, hs, if_false, toLower_eq_self_of_ge hc] at h
        exact h

/-- A character of a safe phrase is a blank, read as a space, or a word character read by its
fold key, which is a lower-case letter. -/
theorem phrase_char {c : Char} (hc : phraseKey c = ' ' ∨ phraseKey c ∈ phraseLetters) :
    (isBlank c = true ∧ phraseKey c = ' ') ∨
      (isWordChar c = true ∧ phraseKey c = foldKey c ∧ (foldKey c).isLower = true) := by
  by_cases hb : isBlank c = true
  · exact .inl ⟨hb, by delta phraseKey; simp [hb]⟩
  · have hkey : phraseKey c = foldKey c := by delta phraseKey; simp [hb]
    rw [hkey] at hc
    rcases hc with hc | hc
    · -- only the space folds to a space, and the space is a blank
      have hsp := foldKey_eq_space hc
      subst hsp
      exact absurd (by decide) hb
    · have hlow := phraseLetters_lower _ hc
      exact .inr ⟨Lex.isWordChar_of_isNameStart (isNameStart_of_foldKey hlow rfl), hkey, hlow⟩

/-- A text that starts, up to case folding, with a lower-case word starts with characters that
`phraseKey` reads as that word. -/
theorem foldPrefix_split {v k : List Char} (hk : ∀ a ∈ k, a.isLower = true)
    (h : foldPrefix v k = true) : ∃ a r, v = a ++ r ∧ a.map phraseKey = k := by
  obtain ⟨-, hmap⟩ := (foldPrefix_iff fun a ha => Lex.toNat_lt_of_isLower (hk a ha)).1 h
  have hlow : k.map Char.toLower = k := by
    conv_rhs => rw [← List.map_id k]
    refine List.map_congr_left fun a ha => ?_
    exact Lex.ascii_forall (fun a => a.isLower = true → a.toLower = a) (by decide)
      (Lex.toNat_lt_of_isLower (hk a ha)) (hk a ha)
  rw [hlow] at hmap
  refine ⟨v.take k.length, v.drop k.length, (List.take_append_drop _ _).symm, ?_⟩
  calc (v.take k.length).map phraseKey = (v.take k.length).map foldKey :=
        List.map_congr_left fun c hc => phraseKey_eq_foldKey
          (hk _ (by rw [← hmap]; exact List.mem_map_of_mem hc))
    _ = k := hmap

theorem foldPrefix_length {v k : List Char} (h : foldPrefix v k = true) : k.length ≤ v.length := by
  induction k generalizing v with
  | nil => simp
  | cons a k ih =>
    cases v with
    | nil => simp [foldPrefix] at h
    | cons c v =>
      simp only [foldPrefix, Bool.and_eq_true] at h
      simpa using ih h.2

/-- The characters that a lower-case word found up to case folding takes read as that word. -/
theorem map_take_of_foldPrefix {v k : List Char} (hk : ∀ a ∈ k, a.isLower = true)
    (h : foldPrefix v k = true) : (v.take k.length).map phraseKey = k := by
  obtain ⟨a, r, rfl, ha⟩ := foldPrefix_split hk h
  have hlen : a.length = k.length := by simpa using congrArg List.length ha
  rw [← hlen, List.take_left' rfl, ha]

/-! ## The phrases the scan finds -/

/-- The blank allowed between `order` and `by`: one, when a blank follows and `by` comes after
it. -/
def byGap (r : List Char) : Nat :=
  if r.head?.any isBlank && foldPrefix r.tail "by".toList then 1 else 0

/-- The blank allowed after `by`. -/
def blankLength (r : List Char) : Nat := if r.head?.any isBlank then 1 else 0

/-- The length of the `asc` or `desc` that may end an `order by` phrase. -/
def tailLength (r : List Char) : Nat :=
  if foldPrefix r "asc".toList then 3 else if foldPrefix r "desc".toList then 4 else 0

theorem guard_guard_pure {α : Type} (p q : Prop) [Decidable p] [Decidable q] (x : α) :
    (guard p >>= fun _ => guard q >>= fun _ => pure x : Option α) = if p ∧ q then some x else none := by
  by_cases hp : p <;> by_cases hq : q <;> simp [hp, hq]

theorem orderByLength_eq (v : List Char) :
    orderByLength v =
      if foldPrefix v "order".toList ∧ foldPrefix ((v.drop 5).drop (byGap (v.drop 5))) "by".toList then
        some (5 + byGap (v.drop 5) + 2 +
          blankLength ((v.drop 5).drop (byGap (v.drop 5) + 2)) +
          tailLength (((v.drop 5).drop (byGap (v.drop 5) + 2)).drop
            (blankLength ((v.drop 5).drop (byGap (v.drop 5) + 2)))))
      else none := by
  unfold orderByLength
  simp only []
  rw [guard_guard_pure]
  generalize v.drop 5 = L
  rcases L with _ | ⟨c, L⟩
  · simp [byGap, foldPrefix]
  · have hgap : byGap (c :: L) = if (isBlank c && foldPrefix L "by".toList) = true then 1 else 0 := by
      simp [byGap]
    rw [hgap]
    dsimp only
    generalize List.drop ((if (isBlank c && foldPrefix L "by".toList) = true then 1 else 0) + 2) (c :: L) = R
    rcases R with _ | ⟨d, R⟩
    · simp [blankLength, tailLength]
    · by_cases hd : isBlank d = true <;> simp [hd, blankLength, tailLength]

theorem map_take_byGap (r : List Char) :
    (r.take (byGap r)).map phraseKey ∈ [[], [' ']] := by
  delta byGap
  split_ifs with h
  · cases r with
    | nil => simp at h
    | cons c r =>
      simp only [List.head?_cons, Option.any_some, Bool.and_eq_true] at h
      delta phraseKey
      simp [h.1]
  · simp

theorem map_take_blankLength (r : List Char) :
    (r.take (blankLength r)).map phraseKey ∈ [[], [' ']] := by
  delta blankLength
  split_ifs with h
  · cases r with
    | nil => simp at h
    | cons c r =>
      simp only [List.head?_cons, Option.any_some] at h
      delta phraseKey
      simp [h]
  · simp

theorem map_take_tailLength (r : List Char) :
    (r.take (tailLength r)).map phraseKey ∈ [[], "asc".toList, "desc".toList] := by
  delta tailLength
  split_ifs with hasc hdesc
  · have h3 := map_take_of_foldPrefix (by simp) hasc
    rw [show "asc".toList.length = 3 by simp] at h3
    simp [h3]
  · have h4 := map_take_of_foldPrefix (by simp) hdesc
    rw [show "desc".toList.length = 4 by simp] at h4
    simp [h4]
  · simp

theorem order_forms {G B T : List Char} (hG : G ∈ [[], [' ']]) (hB : B ∈ [[], [' ']])
    (hT : T ∈ [[], "asc".toList, "desc".toList]) :
    "order".toList ++ G ++ "by".toList ++ B ++ T ∈ phraseForms.map String.toList := by
  simp only [List.mem_cons, List.not_mem_nil, or_false] at hG hB hT
  rcases hG with rfl | rfl <;> rcases hB with rfl | rfl <;> rcases hT with rfl | rfl | rfl <;> decide

theorem orderByLength_form {v : List Char} {n : Nat} (h : orderByLength v = some n) :
    (v.take n).map phraseKey ∈ phraseForms.map String.toList := by
  rw [orderByLength_eq] at h
  split_ifs at h with hcond
  obtain ⟨hord, hby⟩ := hcond
  cases h
  have h5 := map_take_of_foldPrefix (by simp) hord
  have hby' := map_take_of_foldPrefix (by simp) hby
  rw [show "order".toList.length = 5 by simp] at h5
  rw [show "by".toList.length = 2 by simp] at hby'
  have hg := map_take_byGap (v.drop 5)
  have hb := map_take_blankLength (((v.drop 5).drop (byGap (v.drop 5))).drop 2)
  have ht := map_take_tailLength
    ((((v.drop 5).drop (byGap (v.drop 5))).drop 2).drop (blankLength (((v.drop 5).drop (byGap (v.drop 5))).drop 2)))
  simp only [List.take_add, ← List.drop_drop, List.map_append, h5, hby']
  exact order_forms hg hb ht

theorem byGap_le (r : List Char) : byGap r ≤ r.length := by
  delta byGap
  split_ifs with h
  · cases r with
    | nil => simp at h
    | cons c r => simp
  · simp

theorem blankLength_le (r : List Char) : blankLength r ≤ r.length := by
  delta blankLength
  split_ifs with h
  · cases r with
    | nil => simp at h
    | cons c r => simp
  · simp

theorem tailLength_le (r : List Char) : tailLength r ≤ r.length := by
  delta tailLength
  split_ifs with hasc hdesc
  · simpa using foldPrefix_length hasc
  · simpa using foldPrefix_length hdesc
  · simp

theorem orderByLength_bounds {v : List Char} {n : Nat} (h : orderByLength v = some n) :
    7 ≤ n ∧ n ≤ v.length := by
  rw [orderByLength_eq] at h
  split_ifs at h with hcond
  obtain ⟨hord, hby⟩ := hcond
  cases h
  have h5 := foldPrefix_length hord
  have h2 := foldPrefix_length hby
  have hg := byGap_le (v.drop 5)
  have hb := blankLength_le (((v.drop 5).drop (byGap (v.drop 5))).drop 2)
  have ht := tailLength_le ((((v.drop 5).drop (byGap (v.drop 5))).drop 2).drop
    (blankLength (((v.drop 5).drop (byGap (v.drop 5))).drop 2)))
  rw [show "order".toList.length = 5 by simp] at h5
  rw [show "by".toList.length = 2 by simp] at h2
  simp only [List.length_drop] at h2 hg hb ht
  simp only [← List.drop_drop]
  omega

theorem safePhraseLength_spec {v : List Char} {n : Nat} (h : safePhraseLength v = some n) :
    0 < n ∧ n ≤ v.length ∧ (v.take n).map phraseKey ∈ phraseForms.map String.toList := by
  unfold safePhraseLength at h
  split at h
  · rename_i m hm
    cases h
    have := orderByLength_bounds hm
    exact ⟨by omega, this.2, orderByLength_form hm⟩
  · split_ifs at h with hs hu <;> cases h
    · have hlen := foldPrefix_length hs
      have hmap := map_take_of_foldPrefix (by simp) hs
      rw [show "selective".toList.length = 9 by simp] at hlen hmap
      exact ⟨by omega, hlen, by rw [hmap]; decide⟩
    · have hlen := foldPrefix_length hu
      have hmap := map_take_of_foldPrefix (by simp) hu
      rw [show "unionized".toList.length = 9 by simp] at hlen hmap
      exact ⟨by omega, hlen, by rw [hmap]; decide⟩

/-- A character inside a safe phrase is a blank, read as a space, or a word character read by
its fold key. -/
theorem phrase_char_of_mem {v : List Char} {n : Nat} (h : safePhraseLength v = some n)
    {c : Char} (hc : c ∈ v.take n) :
    (isBlank c = true ∧ phraseKey c = ' ') ∨
      (isWordChar c = true ∧ phraseKey c = foldKey c ∧ (foldKey c).isLower = true) :=
  phrase_char (phraseForms_chars (safePhraseLength_spec h).2.2 (List.mem_map_of_mem hc))

/-! ## Where the scans find things -/

/-- Each safe span is a phrase found in the text at its place. -/
theorem mem_safeSpans_go {u : List Char} {i : Nat} {sp : Span} (h : sp ∈ safeSpans.go u i) :
    ∃ pre rest n, u = pre ++ rest ∧ safePhraseLength rest = some n ∧
      sp = ⟨i + pre.length, i + pre.length + n⟩ := by
  fun_induction safeSpans.go u i with
  | case1 => simp at h
  | case2 c cs i n hn ih =>
    rcases List.mem_cons.1 h with rfl | h
    · exact ⟨[], c :: cs, n, rfl, hn, by simp⟩
    · obtain ⟨hpos, hle, -⟩ := safePhraseLength_spec hn
      obtain ⟨pre, rest, m, heq, hm, rfl⟩ := ih h
      refine ⟨c :: cs.take (n - 1) ++ pre, rest, m, ?_, hm, ?_⟩
      · conv_lhs => rw [← List.take_append_drop (n - 1) cs, heq]
        simp
      · simp only [List.cons_append, List.length_cons, List.length_append, List.length_take]
        simp only [List.length_cons] at hle
        congr 1 <;> omega
  | case3 c cs i hn ih =>
    obtain ⟨pre, rest, m, heq, hm, rfl⟩ := ih h
    exact ⟨c :: pre, rest, m, by simp [heq], hm, by simp; omega⟩

theorem hazardSymbols_ne_nil : ∀ s ∈ Lexicon.hazardSymbols, s.toList ≠ [] := by decide

theorem symbolAt_some {t : List Char} {s : String} (h : symbolAt t = some s) :
    s ∈ Lexicon.hazardSymbols ∧ s.toList <+: t := by
  refine ⟨List.mem_of_find?_eq_some h, ?_⟩
  have hp := List.find?_some h
  simp only [beq_iff_eq] at hp
  rw [← hp]
  exact List.take_prefix _ _

theorem symbolAt_none {t : List Char} (h : symbolAt t = none) :
    ∀ s ∈ Lexicon.hazardSymbols, ¬ s.toList <+: t := by
  intro s hs hpre
  have := List.find?_eq_none.1 h s hs
  simp only [beq_iff_eq] at this
  apply this
  rw [← String.length_toList]
  exact (List.prefix_iff_eq_take.1 hpre).symm

/-- Each occurrence is a hazard symbol found in the text at its place. -/
theorem mem_symbolOccurrences_go {u : List Char} {i : Nat} {x : Span × String}
    (hx : x ∈ symbolOccurrences.go u i) :
    x.2 ∈ Lexicon.hazardSymbols ∧ ∃ pre rest, u = pre ++ x.2.toList ++ rest ∧
      x.1 = ⟨i + pre.length, i + pre.length + x.2.length⟩ := by
  fun_induction symbolOccurrences.go u i with
  | case1 => simp at hx
  | case2 c cs i s hs ih =>
    obtain ⟨hmem, rest, hrest⟩ := symbolAt_some hs
    have hpos : 0 < s.length := by
      rw [← String.length_toList]
      exact List.length_pos_of_ne_nil (hazardSymbols_ne_nil s hmem)
    have hdrop : cs.drop (s.length - 1) = rest := by
      have := congrArg (List.drop s.length) hrest
      rw [← String.length_toList, List.drop_left, String.length_toList] at this
      rw [this]
      obtain ⟨k, hk⟩ : ∃ k, s.length = k + 1 := ⟨s.length - 1, by omega⟩
      simp [hk]
    rcases List.mem_cons.1 hx with rfl | hx
    · exact ⟨hmem, [], rest, by simp [hrest], by simp⟩
    · obtain ⟨hm, pre, r, heq, hsp⟩ := ih hx
      rw [hdrop] at heq
      refine ⟨hm, s.toList ++ pre, r, ?_, ?_⟩
      · rw [← hrest, heq]; simp
      · rw [hsp]; simp only [List.length_append, String.length_toList]; congr 1 <;> omega
  | case3 c cs i hs ih =>
    obtain ⟨hm, pre, r, heq, hsp⟩ := ih hx
    refine ⟨hm, c :: pre, r, by simp [heq], ?_⟩
    rw [hsp]; simp only [List.length_cons]; congr 1 <;> omega

/-- The scan finds an occurrence exactly when some hazard symbol stands in the text. -/
theorem symbolOccurrences_go_ne_nil_iff (u : List Char) (i : Nat) :
    symbolOccurrences.go u i ≠ [] ↔ ∃ s ∈ Lexicon.hazardSymbols, s.toList <:+: u := by
  fun_induction symbolOccurrences.go u i with
  | case1 =>
    simp only [ne_eq, not_true_eq_false, false_iff, not_exists, not_and]
    intro s hs hinf
    exact hazardSymbols_ne_nil s hs (List.eq_nil_of_infix_nil hinf)
  | case2 c cs i s hs =>
    obtain ⟨hmem, hpre⟩ := symbolAt_some hs
    simp only [ne_eq, reduceCtorEq, not_false_eq_true, true_iff]
    exact ⟨s, hmem, hpre.isInfix⟩
  | case3 c cs i hs ih =>
    rw [ih]
    constructor
    · rintro ⟨s, hs', hinf⟩
      exact ⟨s, hs', hinf.trans (List.suffix_cons c cs).isInfix⟩
    · rintro ⟨s, hs', hinf⟩
      rcases List.infix_cons_iff.1 hinf with hpre | hinf
      · exact absurd hpre (symbolAt_none hs s hs')
      · exact ⟨s, hs', hinf⟩

/-- `w` stands at `sp` in `t` as a whole word: a non-empty run of word characters with no word
character right before it or right after it. -/
def WholeWord (t : List Char) (sp : Span) (w : List Char) : Prop :=
  ∃ pre post, t = pre ++ w ++ post ∧ sp = ⟨pre.length, pre.length + w.length⟩ ∧ w ≠ [] ∧
    (∀ c ∈ w, isWordChar c = true) ∧ (∀ c ∈ pre.getLast?, isWordChar c = false) ∧
    (∀ c ∈ post.head?, isWordChar c = false)

theorem takeWhile_eq_of_append {p : Char → Bool} {w post : List Char} (hw : ∀ c ∈ w, p c = true)
    (hpost : ∀ c ∈ post.head?, p c = false) : (w ++ post).takeWhile p = w := by
  induction w with
  | nil =>
    cases post with
    | nil => rfl
    | cons c post => simp [hpost c rfl]
  | cons c w ih =>
    rw [List.cons_append, List.takeWhile_cons, if_pos (hw c (by simp)),
      ih fun d hd => hw d (by simp [hd])]

theorem takeWhile_split (p : Char → Bool) (cs : List Char) :
    cs = cs.takeWhile p ++ cs.drop (cs.takeWhile p).length ∧
      ∀ c ∈ (cs.drop (cs.takeWhile p).length).head?, p c = false := by
  have hsplit := (List.takeWhile_append_dropWhile (p := p) (l := cs)).symm
  have hdrop : cs.drop (cs.takeWhile p).length = cs.dropWhile p := by
    calc cs.drop (cs.takeWhile p).length
        = (cs.takeWhile p ++ cs.dropWhile p).drop (cs.takeWhile p).length := by rw [← hsplit]
      _ = cs.dropWhile p := List.drop_left
  refine ⟨by rw [hdrop]; exact hsplit, ?_⟩
  rw [hdrop]
  intro c hc
  have := List.head?_dropWhile_not p cs
  rw [hc] at this
  exact this

/-- The runs of word characters the scan lists are exactly the whole words of the text, with
their places moved by the index the scan starts from. -/
theorem mem_wordRuns_go_iff {u : List Char} {i : Nat} {x : Span × List Char} :
    x ∈ wordRuns.go u i ↔ ∃ pre post, u = pre ++ x.2 ++ post ∧
      x.1 = ⟨i + pre.length, i + pre.length + x.2.length⟩ ∧ x.2 ≠ [] ∧
      (∀ c ∈ x.2, isWordChar c = true) ∧ (∀ c ∈ pre.getLast?, isWordChar c = false) ∧
      (∀ c ∈ post.head?, isWordChar c = false) := by
  fun_induction wordRuns.go u i with
  | case1 i =>
    simp only [List.not_mem_nil, false_iff, not_exists, not_and]
    intro pre post h _ hne
    simp_all
  | case2 c cs i hc more ih =>
    -- the scan takes the run `c :: more` and goes on after it, where no word character follows
    have hrun : ∀ d ∈ c :: more, isWordChar d = true := by
      intro d hd
      rcases List.mem_cons.1 hd with rfl | hd
      · exact hc
      · exact List.mem_takeWhile_imp hd
    obtain ⟨hrest, hhead⟩ := takeWhile_split isWordChar cs
    set rest := cs.drop more.length
    have hrest' : cs = more ++ rest := hrest
    constructor
    · intro hx
      rcases List.mem_cons.1 hx with rfl | hx
      · exact ⟨[], rest, by simp [← hrest'], by simp; omega, by simp, hrun, by simp, hhead⟩
      · obtain ⟨pre, post, hu, hx1, hne, hw, hb, ha⟩ := ih.1 hx
        have hpre : pre ≠ [] := by
          rintro rfl
          obtain ⟨d, ds, hd⟩ := List.exists_cons_of_ne_nil hne
          rw [hd] at hu hw
          exact absurd (hw d (by simp)) (by simp [hhead d (by simp [hu])])
        refine ⟨c :: more ++ pre, post, ?_, ?_, hne, hw, ?_, ha⟩
        · rw [hrest', hu]; simp
        · rw [hx1]; simp; omega
        · rwa [List.getLast?_append_of_ne_nil _ hpre]
    · rintro ⟨pre, post, hu, hx1, hne, hw, hb, ha⟩
      by_cases hpre : pre = []
      · -- a word at the start of the text is the run the scan takes first
        subst hpre
        rw [List.nil_append] at hu
        have hx2 : x.2 = c :: more := by
          have := takeWhile_eq_of_append hw ha
          rw [← hu, List.takeWhile_cons, if_pos hc] at this
          exact this.symm
        obtain ⟨sp, w⟩ := x
        simp only at hx1 hx2
        subst hx1 hx2
        exact List.mem_cons.2 (.inl (by simp; omega))
      · -- any other word starts after that run: the text before it ends with a non-word
        -- character, so it is longer than the run
        have hpfx1 : pre <+: c :: cs := ⟨x.2 ++ post, by rw [hu, List.append_assoc]⟩
        have hpfx2 : c :: more <+: c :: cs := by
          rw [hrest']
          exact List.prefix_append _ _
        have hlong : (c :: more).length < pre.length := by
          by_contra hle
          have hsub : pre <+: c :: more := List.prefix_of_prefix_length_le hpfx1 hpfx2 (by omega)
          obtain ⟨d, hd⟩ := Option.isSome_iff_exists.1 (List.getLast?_isSome.2 hpre)
          exact absurd (hrun d (hsub.subset (List.mem_of_getLast? hd))) (by simp [hb d hd])
        obtain ⟨pre', hpre'⟩ := List.prefix_of_prefix_length_le hpfx2 hpfx1 hlong.le
        have hpre'ne : pre' ≠ [] := by
          rintro rfl
          rw [← hpre', List.append_nil] at hlong
          exact absurd hlong (lt_irrefl _)
        apply List.mem_cons_of_mem
        apply ih.2
        refine ⟨pre', post, ?_, ?_, hne, hw, ?_, ha⟩
        · have : c :: (more ++ rest) = c :: (more ++ (pre' ++ x.2 ++ post)) := by
            rw [← hrest', hu, ← hpre']
            simp
          simpa using this
        · rw [hx1, ← hpre']
          simp
          omega
        · rwa [← hpre', List.getLast?_append_of_ne_nil _ hpre'ne] at hb
  | case3 c cs i hc ih =>
    constructor
    · intro hx
      obtain ⟨pre, post, hu, hx1, hne, hw, hb, ha⟩ := ih.1 hx
      refine ⟨c :: pre, post, by simp [hu], by rw [hx1]; simp; omega, hne, hw, ?_, ha⟩
      cases pre with
      | nil => simpa using hc
      | cons d pre => simpa [List.getLast?_cons_cons] using hb
    · rintro ⟨pre, post, hu, hx1, hne, hw, hb, ha⟩
      cases pre with
      | nil =>
        obtain ⟨d, ds, hd⟩ := List.exists_cons_of_ne_nil hne
        rw [hd] at hu hw
        simp only [List.nil_append, List.cons_append, List.cons.injEq] at hu
        exact absurd (hu.1 ▸ hw d (by simp)) hc
      | cons d pre =>
        simp only [List.cons_append, List.cons.injEq] at hu
        obtain ⟨rfl, hu⟩ := hu
        apply ih.2
        refine ⟨pre, post, by rw [hu, List.append_assoc], by rw [hx1]; simp; omega, hne, hw, ?_, ha⟩
        intro e he
        apply hb
        cases pre with
        | nil => simp at he
        | cons f pre => simpa [List.getLast?_cons_cons] using he

theorem mem_wordRuns_iff {t : List Char} {x : Span × List Char} :
    x ∈ wordRuns t ↔ WholeWord t x.1 x.2 := by
  simp only [wordRuns, mem_wordRuns_go_iff, Nat.zero_add, WholeWord]

/-! ## What a safe span masks -/

/-- A stretch of a text that lies inside a phrase found at another place of the text is read
inside the phrase at the offset between the two places, with the same neighbours. -/
theorem slice_within {pre w post pre' rest : List Char} {n : Nat}
    (ht : pre ++ w ++ post = pre' ++ rest) (hle : pre'.length ≤ pre.length)
    (hn : pre.length + w.length ≤ pre'.length + n) :
    ((rest.take n).drop (pre.length - pre'.length)).take w.length = w ∧
    (pre'.length < pre.length → (rest.take n)[pre.length - pre'.length - 1]? = pre.getLast?) ∧
    (pre.length + w.length < pre'.length + n →
      (rest.take n)[pre.length - pre'.length + w.length]? = post.head?) := by
  have hrest : rest = pre.drop pre'.length ++ w ++ post := by
    have := congrArg (List.drop pre'.length) ht
    rw [List.drop_left, List.append_assoc, List.drop_append_of_le_length hle] at this
    rw [← this, List.append_assoc]
  have hD : (pre.drop pre'.length).length = pre.length - pre'.length := List.length_drop ..
  subst hrest
  refine ⟨?_, ?_, ?_⟩
  · rw [List.drop_take, List.append_assoc, List.drop_left' hD, List.take_take,
      Nat.min_eq_left (by omega), List.take_left' rfl]
  · intro hlt
    rw [List.getElem?_take_of_lt (by omega), List.append_assoc,
      List.getElem?_append_left (by omega), List.getLast?_eq_getElem?, List.getElem?_drop]
    congr 1
    omega
  · intro hlt
    rw [List.getElem?_take_of_lt (by omega), List.append_assoc,
      List.getElem?_append_right (by omega), hD, Nat.add_sub_cancel_left,
      List.getElem?_append_right (le_refl _), Nat.sub_self, List.head?_eq_getElem?]

/-- A stretch of the text inside a safe span is read inside the phrase found there. -/
theorem slice_of_within {u pre w post : List Char} {safe : Span} (hu : u = pre ++ w ++ post)
    (hsafe : safe ∈ safeSpans u) (hin : Span.within ⟨pre.length, pre.length + w.length⟩ safe = true) :
    ∃ rest n, safePhraseLength rest = some n ∧ rest.length ≤ u.length ∧
      (rest.take n).length = n ∧ ∃ j, j + w.length ≤ n ∧
      ((rest.take n).drop j).take w.length = w ∧
      (0 < j → (rest.take n)[j - 1]? = pre.getLast?) ∧
      (j + w.length < n → (rest.take n)[j + w.length]? = post.head?) := by
  obtain ⟨pre', rest, n, heq, hn, rfl⟩ := mem_safeSpans_go hsafe
  simp only [Span.within, Nat.zero_add, Bool.and_eq_true, decide_eq_true_eq] at hin
  obtain ⟨-, hle, -⟩ := safePhraseLength_spec hn
  obtain ⟨hw, hbefore, hafter⟩ := slice_within (hu ▸ heq) hin.1 hin.2
  refine ⟨rest, n, hn, by simp [heq], by simp; omega, pre.length - pre'.length, by omega, hw,
    fun hj => hbefore (by omega), fun hj => hafter (by omega)⟩

/-- A whole word inside a safe span is one of the words of the safe phrases. -/
theorem wholeWord_within_safe {u : List Char} {sp : Span} {w : List Char} {safe : Span}
    (hw : WholeWord u sp w) (hsafe : safe ∈ safeSpans u) (hin : sp.within safe = true) :
    w.map foldKey ∈ phraseWords.map String.toList := by
  obtain ⟨pre, post, hu, rfl, hne, hword, hb, ha⟩ := hw
  obtain ⟨rest, n, hn, -, hlen, j, hjm, hslice, hbefore, hafter⟩ := slice_of_within hu hsafe hin
  have hmemP : ∀ c ∈ w, c ∈ rest.take n := fun c hc => by
    rw [← hslice] at hc
    exact List.mem_of_mem_drop (List.mem_of_mem_take hc)
  -- inside the phrase a word character reads as its fold key, any other character as a space
  have hkey : ∀ c ∈ rest.take n, isWordChar c = true →
      phraseKey c = foldKey c ∧ (foldKey c).isLower = true := by
    intro c hc hwc
    rcases phrase_char_of_mem hn hc with ⟨hbl, -⟩ | ⟨-, h1, h2⟩
    · rw [isWordChar_of_isBlank hbl] at hwc
      cases hwc
    · exact ⟨h1, h2⟩
  have hspace : ∀ c ∈ rest.take n, isWordChar c = false → phraseKey c = ' ' := by
    intro c hc hwc
    rcases phrase_char_of_mem hn hc with ⟨-, h⟩ | ⟨h, -⟩
    · exact h
    · rw [hwc] at h
      cases h
  have hread : w.map phraseKey = w.map foldKey :=
    List.map_congr_left fun c hc => (hkey c (hmemP c hc) (hword c hc)).1
  set F := (rest.take n).map phraseKey with hFdef
  have hF : F ∈ phraseForms.map String.toList := (safePhraseLength_spec hn).2.2
  have hFlen : F.length = n := by rw [hFdef, List.length_map, hlen]
  have hsegw : (F.drop j).take w.length = w.map foldKey := by
    rw [hFdef, ← List.map_drop, ← List.map_take, hslice, hread]
  -- the characters on either side of the word inside the phrase are blanks
  have hleft : j = 0 ∨ F[j - 1]? = some ' ' := by
    rcases Nat.eq_zero_or_pos j with h0 | hj
    · exact .inl h0
    · obtain ⟨d, hd⟩ : ∃ d, (rest.take n)[j - 1]? = some d :=
        ⟨_, List.getElem?_eq_getElem (by omega)⟩
      have hdw : isWordChar d = false := hb d (by rw [← hbefore hj]; exact hd)
      right
      rw [hFdef, List.getElem?_map, hd, Option.map_some, hspace d (List.mem_of_getElem? hd) hdw]
  have hright : j + w.length = F.length ∨ F[j + w.length]? = some ' ' := by
    rcases Nat.lt_or_ge (j + w.length) n with hlt | hge
    · obtain ⟨d, hd⟩ : ∃ d, (rest.take n)[j + w.length]? = some d :=
        ⟨_, List.getElem?_eq_getElem (by omega)⟩
      have hdw : isWordChar d = false := ha d (by rw [← hafter hlt]; exact hd)
      right
      rw [hFdef, List.getElem?_map, hd, Option.map_some, hspace d (List.mem_of_getElem? hd) hdw]
    · left
      omega
  have hnospace : ' ' ∉ w.map foldKey := by
    intro h
    obtain ⟨c, hc, hsp⟩ := List.mem_map.1 h
    have := (hkey c (hmemP c hc) (hword c hc)).2
    rw [hsp] at this
    exact absurd this (by decide)
  have hpos : 0 < w.length := List.length_pos_of_ne_nil hne
  have hl : (j == 0 || F[j - 1]? == some ' ') = true := by
    rcases hleft with h | h <;> simp [h]
  have hr : (j + w.length == F.length || F[j + w.length]? == some ' ') = true := by
    rcases hright with h | h <;> simp [h]
  have hseg : isSegment F j w.length = true := by
    simp only [isSegment, hl, hr, hsegw, Bool.and_true]
    simp [hpos, hFlen, hjm, hnospace]
  have := phraseForms_segments F hF j (List.mem_range.2 (by omega)) w.length
    (List.mem_range.2 (by omega)) hseg
  rwa [hsegw] at this

/-- Every character of a hazard symbol reads, under `phraseKey`, as neither a space nor a
phrase letter. -/
theorem hazard_chars_outside_phrases :
    ∀ s ∈ Lexicon.hazardSymbols, ∀ d ∈ s.toList, phraseKey d ≠ ' ' ∧ phraseKey d ∉ phraseLetters := by
  have hall : Lexicon.hazardSymbols.all
      (fun s => s.toList.all fun d => phraseKey d != ' ' && !phraseLetters.contains (phraseKey d)) = true := by
    rfl
  intro s hs d hd
  simpa using List.all_eq_true.1 (List.all_eq_true.1 hall s hs) d hd

/-- No hazard symbol lies inside a safe span: the safe phrases are made of letters and blanks. -/
theorem symbol_not_within {u : List Char} {x : Span × String} (hx : x ∈ symbolOccurrences u)
    {safe : Span} (hsafe : safe ∈ safeSpans u) : x.1.within safe = false := by
  obtain ⟨hmem, pre, rest, hu, hsp⟩ := mem_symbolOccurrences_go hx
  rw [Bool.eq_false_iff]
  intro hin
  rw [hsp, Nat.zero_add, ← String.length_toList] at hin
  obtain ⟨r, n, hn, -, -, j, -, hslice, -, -⟩ := slice_of_within hu hsafe hin
  obtain ⟨d, hd⟩ := List.exists_mem_of_ne_nil _ (hazardSymbols_ne_nil _ hmem)
  have hdP : d ∈ r.take n := by
    rw [← hslice] at hd
    exact List.mem_of_mem_drop (List.mem_of_mem_take hd)
  obtain ⟨h1, h2⟩ := hazard_chars_outside_phrases _ hmem d hd
  rcases phraseForms_chars (safePhraseLength_spec hn).2.2 (List.mem_map_of_mem hdP) with h | h
  · exact h1 h
  · exact h2 h

set_option maxRecDepth 20000 in
/-- Of the words the screen looks for, only `order`, `by`, `asc` and `desc` can be hidden by a
safe phrase. -/
theorem masked_word_mem {t : List Char} {sp : Span} {w : List Char} {safe : Span}
    (hw : WholeWord t sp w) (hsafe : safe ∈ safeSpans t) (hin : sp.within safe = true)
    {k : String} (hk : k ∈ Lexicon.statementWords ++ Lexicon.reservedWords ++ Lexicon.logicWords)
    (hfold : w.map foldKey = k.toList) : k ∈ ["order", "by", "asc", "desc"] := by
  have hall : (Lexicon.statementWords ++ Lexicon.reservedWords ++ Lexicon.logicWords).all
      (fun k => !phraseWords.contains k || ["order", "by", "asc", "desc"].contains k) = true := by
    decide
  have hphrase := wholeWord_within_safe hw hsafe hin
  rw [hfold] at hphrase
  obtain ⟨p, hp, hpk⟩ := List.mem_map.1 hphrase
  rw [String.toList_inj] at hpk
  subst hpk
  simpa [hp] using List.all_eq_true.1 hall p hk

/-! ## The verdict -/

theorem firstOutside_isSome_iff {α : Type} {safe : List Span} {occ : List (Span × α)} :
    (firstOutside safe occ).isSome = true ↔ ∃ x ∈ occ, ∀ s ∈ safe, x.1.within s = false := by
  simp [firstOutside, List.find?_isSome]

/-- Symbols are never masked: the symbol search finds an occurrence outside the safe spans
exactly when a hazard symbol stands in the text. -/
theorem firstOutside_symbolOccurrences (t : List Char) :
    (firstOutside (safeSpans t) (symbolOccurrences t)).isSome = true ↔
      ∃ s ∈ Lexicon.hazardSymbols, s.toList <:+: t := by
  rw [firstOutside_isSome_iff, ← symbolOccurrences_go_ne_nil_iff t 0]
  constructor
  · rintro ⟨x, hx, -⟩
    exact List.ne_nil_of_mem hx
  · intro h
    obtain ⟨x, hx⟩ := List.exists_mem_of_ne_nil _ h
    exact ⟨x, hx, fun s hs => symbol_not_within hx hs⟩

/-- A whole word of `t` that folds to a word of the list and lies inside no safe span. -/
def UnmaskedWord (words : List String) (t : List Char) : Prop :=
  ∃ sp w, WholeWord t sp w ∧ (∃ k ∈ words, w.map foldKey = k.toList) ∧
    ∀ safe ∈ safeSpans t, sp.within safe = false

theorem foldEqWord_iff_of_lower {w k : List Char} (hk : ∀ a ∈ k, a.toNat < 128 ∧ a.toLower = a) :
    foldEqWord w k = true ↔ w.map foldKey = k := by
  rw [foldEqWord_iff fun a ha => (hk a ha).1]
  have hlow : k.map Char.toLower = k := by
    conv_rhs => rw [← List.map_id k]
    exact List.map_congr_left fun a ha => (hk a ha).2
  rw [hlow]

/-- The word search over a list of lower-case ASCII words finds an occurrence outside the safe
spans exactly when the text has an unmasked whole word of the list. -/
theorem firstOutside_wordOccurrences {words : List String} {t : List Char}
    (hw : ∀ k ∈ words, ∀ a ∈ k.toList, a.toNat < 128 ∧ a.toLower = a) :
    (firstOutside (safeSpans t) (wordOccurrences words t)).isSome = true ↔ UnmaskedWord words t := by
  rw [firstOutside_isSome_iff]
  constructor
  · rintro ⟨x, hx, hout⟩
    rw [wordOccurrences, List.mem_filter, List.any_eq_true] at hx
    obtain ⟨hrun, k, hk, hfold⟩ := hx
    exact ⟨x.1, x.2, mem_wordRuns_iff.1 hrun, ⟨k, hk, (foldEqWord_iff_of_lower (hw k hk)).1 hfold⟩, hout⟩
  · rintro ⟨sp, w, hww, ⟨k, hk, hfold⟩, hout⟩
    refine ⟨(sp, w), ?_, hout⟩
    rw [wordOccurrences, List.mem_filter, List.any_eq_true]
    exact ⟨mem_wordRuns_iff.2 hww, k, hk, (foldEqWord_iff_of_lower (hw k hk)).2 hfold⟩

theorem ascii_lower_of_all {words : List String}
    (h : words.all (fun k => k.toList.all fun a => decide (a.toNat < 128) && a.toLower == a) = true) :
    ∀ k ∈ words, ∀ a ∈ k.toList, a.toNat < 128 ∧ a.toLower = a := by
  intro k hk a ha
  simpa using List.all_eq_true.1 (List.all_eq_true.1 h k hk) a ha

set_option maxRecDepth 20000 in
/-- Every word the keyword and logic families look for is lower-case ASCII. -/
theorem searchedWords_ascii : ∀ k ∈ Lexicon.keywordFamilyWords ++ Lexicon.logicWords,
    ∀ a ∈ k.toList, a.toNat < 128 ∧ a.toLower = a :=
  ascii_lower_of_all (by decide)

theorem keywordFamilyWords_ascii :
    ∀ k ∈ Lexicon.keywordFamilyWords, ∀ a ∈ k.toList, a.toNat < 128 ∧ a.toLower = a :=
  fun k hk => searchedWords_ascii k (List.mem_append_left _ hk)

theorem logicWords_ascii : ∀ k ∈ Lexicon.logicWords, ∀ a ∈ k.toList, a.toNat < 128 ∧ a.toLower = a :=
  fun k hk => searchedWords_ascii k (List.mem_append_right _ hk)

theorem mem_keywordFamilyWords {k : String} :
    k ∈ Lexicon.keywordFamilyWords ↔ k ∈ Lexicon.statementWords ++ Lexicon.reservedWords := by
  rw [Lexicon.keywordFamilyWords, List.mem_append, List.mem_append, List.mem_filter]
  constructor
  · rintro (h | h)
    · exact .inl h
    · exact .inr h.1
  · rintro (h | h)
    · exact .inl h
    · by_cases hs : k ∈ Lexicon.statementWords
      · exact .inl hs
      · exact .inr ⟨h, by simpa using hs⟩

theorem unmaskedWord_congr {words words' : List String} {t : List Char}
    (h : ∀ k, k ∈ words ↔ k ∈ words') : UnmaskedWord words t ↔ UnmaskedWord words' t := by
  simp only [UnmaskedWord, h]

/-- The family searches flag a text exactly when a chosen family finds an occurrence outside the
safe spans. -/
theorem searchFamilies_isFlagged (t : List Char) (families : Families) :
    (searchFamilies t families).isFlagged = true ↔
      (families.symbols = true ∧ (firstOutside (safeSpans t) (symbolOccurrences t)).isSome = true) ∨
      (families.keywords = true ∧
        (firstOutside (safeSpans t) (wordOccurrences Lexicon.keywordFamilyWords t)).isSome = true) ∨
      (families.logicWords = true ∧
        (firstOutside (safeSpans t) (wordOccurrences Lexicon.logicWords t)).isSome = true) := by
  unfold searchFamilies
  dsimp only
  generalize firstOutside (safeSpans t) (symbolOccurrences t) = S
  generalize firstOutside (safeSpans t) (wordOccurrences Lexicon.keywordFamilyWords t) = K
  generalize firstOutside (safeSpans t) (wordOccurrences Lexicon.logicWords t) = L
  obtain ⟨_ | _, _ | _, _ | _⟩ := families <;> cases S <;> cases K <;> cases L <;>
    simp [Verdict.isFlagged]

/-- Once no pre-filter decides, the screen flags a text exactly when a chosen family finds its
sign in the trimmed text: any hazard symbol, or a whole word that folds to a word of the family
and lies inside no safe phrase. -/
theorem inspect_flagged_iff_family_hit {text : String} {families : Families}
    (hne : trimChars text.toList ≠ [])
    (hemail : Recognise.isEmail (String.ofList (trimChars text.toList)) = false)
    (hnum : Recognise.isNumeric (String.ofList (trimChars text.toList)) = false)
    (hmark : containsPart ((trimChars text.toList).map Char.toLower) base64Marker.toList = false) :
    (inspect text families).isFlagged = true ↔
      (families.symbols = true ∧ ∃ s ∈ Lexicon.hazardSymbols, s.toList <:+: trimChars text.toList) ∨
      (families.keywords = true ∧
        UnmaskedWord (Lexicon.statementWords ++ Lexicon.reservedWords) (trimChars text.toList)) ∨
      (families.logicWords = true ∧ UnmaskedWord Lexicon.logicWords (trimChars text.toList)) := by
  have hsearch : inspect text families = searchFamilies (trimChars text.toList) families := by
    simp [inspect, hne, hemail, hnum, hmark]
  rw [hsearch, searchFamilies_isFlagged, firstOutside_symbolOccurrences,
    firstOutside_wordOccurrences keywordFamilyWords_ascii,
    firstOutside_wordOccurrences logicWords_ascii,
    unmaskedWord_congr fun _ => mem_keywordFamilyWords]

theorem inspect_flagged_iff_family_hit_of_order_id :
    (inspect "order_id" Families.all).isFlagged = true ↔
      (Families.all.symbols = true ∧
        ∃ s ∈ Lexicon.hazardSymbols, s.toList <:+: trimChars "order_id".toList) ∨
      (Families.all.keywords = true ∧
        UnmaskedWord (Lexicon.statementWords ++ Lexicon.reservedWords) (trimChars "order_id".toList)) ∨
      (Families.all.logicWords = true ∧ UnmaskedWord Lexicon.logicWords (trimChars "order_id".toList)) :=
  inspect_flagged_iff_family_hit (by decide) (by decide +kernel) (by decide +kernel) (by decide +kernel)

end Screen
end QueryShield
