import Mathlib
import QueryShield.Proofs.Clause.Relexing

/-!
# What the lexer reads and what it skips

The lexer takes, at each place of a fragment, the first form that starts there, and skips a
character where none does.  `Lex.scan` is that reading on its own: the successive matches,
each with the stretch skipped before it, and the stretch left after the last one.  The reading
loses nothing: skipped stretches and matched spans, in order, give the fragment back
(`scan_append`), and every match spans at least one character, its lexeme's text being the
span, upper-cased for keywords (`scan_faithful`).

The lexer is that reading followed by a look at the skipped stretches (`go_eq_verdict`): it
returns the lexemes of the matches when every skipped character is blank, and otherwise
refuses the fragment as an injection of symbols (`Lexeme.lex_reads_fragment`).  A quoted text,
written the way a text parameter is written inline, is read back as one literal whose content
is the text.
-/

namespace QueryShield
namespace Lex

open Text

/-! ## The successive matches -/

/-- A match of the lexer: the stretch skipped before it, the characters it spans and the
lexeme it reads there. -/
structure Match where
  gap : List Char
  span : List Char
  lexeme : Lexeme

/-- The successive matches over `t`, read after the character `prev`, with `gap` skipped (last
character first) since the previous match; and the stretch left after the last match. -/
def scan (prev : Option Char) (gap : List Char) : List Char → List Match × List Char
  | [] => ([], gap.reverse)
  | c :: cs =>
    (lexemeAt prev (c :: cs)).elim (scan (some c) (c :: gap) cs) fun found =>
      let taken := (c :: cs).take found.2
      let more := scan (taken.getLast?.orElse fun _ => prev) [] (cs.drop (found.2 - 1))
      (⟨gap.reverse, taken, found.1⟩ :: more.1, more.2)
termination_by t => t.length
decreasing_by all_goals simp_wf

/-- The lexer's verdict on the matches: the first skipped stretch that is not blank refuses the
fragment; otherwise the lexemes of the matches, in order. -/
def verdict : List Match → List Char → Except GuardError (List Lexeme)
  | [], tail => (checkGap tail).map fun _ => []
  | m :: ms, tail => checkGap m.gap >>= fun _ => (verdict ms tail).map (m.lexeme :: ·)

/-- Every character the matches skip, before each and after the last, is blank. -/
def SkipsBlanks (r : List Match × List Char) : Prop :=
  (∀ m ∈ r.1, ∀ c ∈ m.gap, isBlank c = true) ∧ ∀ c ∈ r.2, isBlank c = true

/-- A match spans characters, and its lexeme's text is the span, upper-cased for keywords. -/
def Match.Faithful (m : Match) : Prop :=
  m.span ≠ [] ∧
    m.lexeme.text = if m.lexeme.kind = .keyword then asciiUpper (String.ofList m.span)
      else String.ofList m.span

/-! ## Skipped stretches -/

theorem trimChars_eq_nil_iff {gap : List Char} : trimChars gap = [] ↔ ∀ c ∈ gap, isBlank c = true := by
  unfold trimChars
  rw [List.reverse_eq_nil_iff, List.dropWhile_eq_nil_iff]
  constructor
  · intro h
    -- the first character that is not blank would be left in the trimmed text
    rw [← List.dropWhile_eq_nil_iff]
    cases hd : gap.dropWhile isBlank with
    | nil => rfl
    | cons d rest =>
      have hblank := h d (by simp [hd])
      have hnot := List.head_dropWhile_not isBlank (l := gap) (by simp [hd])
      simp [hd, hblank] at hnot
  · intro h c hc
    rw [List.dropWhile_eq_nil_iff.2 h] at hc
    cases hc

/-- A skipped stretch that is not blank is refused as an injection of symbols, with its
trimmed text. -/
theorem checkGap_not_blank {gap : List Char} (h : ¬∀ c ∈ gap, isBlank c = true) :
    checkGap gap = .error (.injection (String.ofList (trimChars gap)) .symbol) := by
  have hne : trimChars gap ≠ [] := fun he => h (trimChars_eq_nil_iff.1 he)
  simp [checkGap, hne]

@[simp] theorem skipsBlanks_nil {tail : List Char} :
    SkipsBlanks ([], tail) ↔ ∀ c ∈ tail, isBlank c = true := by
  simp [SkipsBlanks]

@[simp] theorem skipsBlanks_cons {m : Match} {ms : List Match} {tail : List Char} :
    SkipsBlanks (m :: ms, tail) ↔ (∀ c ∈ m.gap, isBlank c = true) ∧ SkipsBlanks (ms, tail) := by
  simp [SkipsBlanks, and_assoc]

theorem verdict_cons_of_blank {m : Match} {ms : List Match} {tail : List Char}
    (h : ∀ c ∈ m.gap, isBlank c = true) :
    verdict (m :: ms) tail = (verdict ms tail).map (m.lexeme :: ·) := by
  rw [verdict, checkGap_blank h]
  rfl

theorem verdict_cons_of_not_blank {m : Match} {ms : List Match} {tail : List Char}
    (h : ¬∀ c ∈ m.gap, isBlank c = true) :
    verdict (m :: ms) tail = .error (.injection (String.ofList (trimChars m.gap)) .symbol) := by
  rw [verdict, checkGap_not_blank h]
  rfl

theorem verdict_eq_ok_iff {ms : List Match} {tail : List Char} {ls : List Lexeme} :
    verdict ms tail = .ok ls ↔ SkipsBlanks (ms, tail) ∧ ls = ms.map Match.lexeme := by
  induction ms generalizing ls with
  | nil =>
    by_cases h : ∀ c ∈ tail, isBlank c = true
    · rw [verdict, checkGap_blank h]
      simp only [Except.map, Except.ok.injEq, skipsBlanks_nil, List.map_nil]
      exact ⟨fun h' => ⟨h, h'.symm⟩, fun h' => h'.2.symm⟩
    · rw [verdict, checkGap_not_blank h]
      simp [Except.map, h]
  | cons m ms ih =>
    by_cases hg : ∀ c ∈ m.gap, isBlank c = true
    · rw [verdict_cons_of_blank hg, skipsBlanks_cons]
      cases hv : verdict ms tail with
      | error e =>
        -- the rest is refused, so it does not skip blanks only
        have hnot : ¬SkipsBlanks (ms, tail) := fun hs => nomatch hv.symm.trans (ih.2 ⟨hs, rfl⟩)
        simp [Except.map, hnot]
      | ok ls' =>
        obtain ⟨hs, rfl⟩ := ih.1 hv
        simp only [Except.map, Except.ok.injEq, List.map_cons]
        exact ⟨fun h' => ⟨⟨hg, hs⟩, h'.symm⟩, fun h' => h'.2.symm⟩
    · rw [verdict_cons_of_not_blank hg]
      simp [hg]

theorem verdict_refuses {ms : List Match} {tail : List Char} (h : ¬SkipsBlanks (ms, tail)) :
    ∃ residue, verdict ms tail = .error (.injection residue .symbol) := by
  induction ms with
  | nil =>
    have ht : ¬∀ c ∈ tail, isBlank c = true := fun ht => h (skipsBlanks_nil.2 ht)
    exact ⟨_, by rw [verdict, checkGap_not_blank ht]; rfl⟩
  | cons m ms ih =>
    by_cases hg : ∀ c ∈ m.gap, isBlank c = true
    · -- the first stretch is blank: the refusal comes from a later one
      obtain ⟨residue, hres⟩ := ih fun hs => h (skipsBlanks_cons.2 ⟨hg, hs⟩)
      exact ⟨residue, by rw [verdict_cons_of_blank hg, hres]; rfl⟩
    · exact ⟨_, verdict_cons_of_not_blank hg⟩

/-! ## The lexer is the reading, then the verdict -/

theorem go_eq_verdict (prev : Option Char) (gap t : List Char) :
    go prev gap t = verdict (scan prev gap t).1 (scan prev gap t).2 := by
  fun_induction scan prev gap t with
  | case1 prev gap =>
    rw [go, verdict]
  | case2 prev gap c cs ih1 ih2 =>
    rw [go]
    cases hlex : lexemeAt prev (c :: cs) with
    | none =>
      simp only [Option.elim]
      exact ih1
    | some found =>
      obtain ⟨l, n⟩ := found
      simp only [Option.elim]
      rw [verdict, ← ih2 (l, n)]
      -- both refuse on the skipped stretch first, then on the rest
      cases checkGap gap.reverse with
      | error e => rfl
      | ok u => cases go _ [] _ <;> rfl

/-! ## The reading loses nothing -/

theorem connectiveLength_pos {prev : Option Char} {t : List Char} {n : Nat}
    (h : connectiveLength prev t = some n) : 0 < n := by
  have hne := (connectiveLength_shape h).ne_nil
  rcases n with _ | n
  · simp at hne
  · omega

theorem nameLength_pos {t : List Char} {n : Nat} (h : nameLength t = some n) : 0 < n := by
  obtain ⟨c, cs, hc, -⟩ := (nameLength_shape h).head
  rcases n with _ | n
  · simp at hc
  · omega

theorem numberLength_pos {t : List Char} {n : Nat} (h : numberLength t = some n) : 0 < n := by
  unfold numberLength at h
  split at h
  rename_i sign t' _
  dsimp only at h
  split at h
  · cases h
  · rename_i hds
    cases h
    have : 0 < (t'.takeWhile isDecimalDigit).length := by
      cases hw : t'.takeWhile isDecimalDigit with
      | nil => simp [hw] at hds
      | cons d ds => simp
    omega

/-- A lexeme found at a place spans its first characters, and its text is what it spans,
upper-cased for keywords. -/
theorem lexemeAt_faithful {prev : Option Char} {c : Char} {t : List Char} {l : Lexeme} {n : Nat}
    (h : lexemeAt prev (c :: t) = some (l, n)) (gap : List Char) :
    Match.Faithful ⟨gap, (c :: t).take n, l⟩ := by
  -- the span is not empty as soon as the length is positive
  have hspan : 0 < n → ((c :: t).take n ≠ []) := by
    intro hn
    rcases n with _ | n
    · omega
    · simp
  unfold lexemeAt at h
  split at h
  · rename_i m hm
    cases h
    obtain ⟨-, -, hm1⟩ := quotedLength_head hm
    exact ⟨hspan hm1, by simp⟩
  · split at h
    · rename_i m hm
      cases h
      obtain ⟨-, -, hm1⟩ := quotedLength_head hm
      exact ⟨hspan hm1, by simp⟩
    · split at h
      · -- a comparison: the text is the characters it was compared with
        rename_i op hop
        cases h
        have hmem := List.mem_of_find?_eq_some hop
        have htake := List.find?_some hop
        rw [beq_iff_eq] at htake
        refine ⟨hspan (by rw [← String.length_toList]; exact (comparisons_length op hmem).1), ?_⟩
        simp [htake]
      · split at h
        · rename_i d rest heq
          obtain ⟨rfl, rfl⟩ := List.cons.inj heq
          split at h
          · cases h
            refine ⟨hspan Nat.one_pos, ?_⟩
            simp only [List.take_succ_cons, List.take_zero, reduceCtorEq, if_false]
            exact String.singleton_eq_ofList
          · split at h
            · rename_i m hm
              cases h
              exact ⟨hspan (connectiveLength_pos hm), by simp⟩
            · split at h
              · rename_i m hm
                dsimp only at h
                split at h
                · cases h
                  exact ⟨hspan (nameLength_pos hm), by simp⟩
                · cases h
                  exact ⟨hspan (nameLength_pos hm), by simp⟩
              · split at h
                · rename_i m hm
                  cases h
                  exact ⟨hspan (numberLength_pos hm), by simp⟩
                · cases h
        · cases h

/-- The skipped stretches and the spans, in order, give the text back. -/
theorem scan_append (prev : Option Char) (gap t : List Char) :
    gap.reverse ++ t =
      ((scan prev gap t).1.flatMap fun m => m.gap ++ m.span) ++ (scan prev gap t).2 := by
  fun_induction scan prev gap t with
  | case1 prev gap => simp
  | case2 prev gap c cs ih1 ih2 =>
    cases hlex : lexemeAt prev (c :: cs) with
    | none =>
      simp only [Option.elim]
      rw [← ih1]
      simp
    | some found =>
      obtain ⟨l, n⟩ := found
      have hn := (lexemeAt_faithful hlex []).1
      have ih := ih2 (l, n)
      dsimp only at ih
      rw [List.reverse_nil, List.nil_append] at ih
      simp only [Option.elim, List.flatMap_cons, List.append_assoc]
      rw [← ih]
      -- the span and what is read after it make up the text
      rcases n with _ | n
      · simp at hn
      · simp

theorem scan_faithful (prev : Option Char) (gap t : List Char) :
    ∀ m ∈ (scan prev gap t).1, m.Faithful := by
  fun_induction scan prev gap t with
  | case1 prev gap => simp
  | case2 prev gap c cs ih1 ih2 =>
    cases hlex : lexemeAt prev (c :: cs) with
    | none =>
      simp only [Option.elim]
      exact ih1
    | some found =>
      obtain ⟨l, n⟩ := found
      simp only [Option.elim]
      intro m hm
      rcases List.mem_cons.1 hm with rfl | hm
      · exact lexemeAt_faithful hlex _
      · exact ih2 (l, n) m hm

end Lex

/-! ## The lexer of a fragment -/

namespace Lexeme

open QueryShield.Lex

/-- The successive matches of the lexer over a fragment, and the stretch after the last. -/
def reading (fragment : String) : List Match × List Char := scan none [] fragment.toList

/-- The lexer reads a fragment completely.  The stretches it skips and the spans of its
matches, in order, make up the fragment; every match spans at least one character and its
lexeme's text is the span, upper-cased for keywords.  The lexer returns the lexemes of the
matches exactly when every skipped character is blank, and refuses the fragment as an
injection of symbols otherwise.  A text written as an inline literal, in single quotes with
each quote doubled, is read as one literal whose content is the text. -/
theorem lex_reads_fragment (fragment : String) :
    fragment.toList = ((reading fragment).1.flatMap fun m => m.gap ++ m.span) ++
        (reading fragment).2 ∧
      (∀ m ∈ (reading fragment).1, m.Faithful) ∧
      (∀ ls, lex fragment = .ok ls ↔
        SkipsBlanks (reading fragment) ∧ ls = (reading fragment).1.map Match.lexeme) ∧
      (¬SkipsBlanks (reading fragment) →
        ∃ residue, lex fragment = .error (.injection residue .symbol)) ∧
      ∀ x : String, lex (Datum.text x).literal = .ok [⟨(Datum.text x).literal, .literal⟩] ∧
        unquoted ⟨(Datum.text x).literal, .literal⟩ = x := by
  have hlex : lex fragment = verdict (reading fragment).1 (reading fragment).2 :=
    go_eq_verdict none [] fragment.toList
  refine ⟨by simpa [reading] using scan_append none [] fragment.toList, scan_faithful none [] _,
    fun ls => hlex ▸ verdict_eq_ok_iff, fun h => hlex ▸ verdict_refuses h, fun x => ⟨?_, ?_⟩⟩
  · -- the quoted text is one match, with nothing skipped before or after it
    have hq : lexemeAt none ((Datum.quoteText x).toList ++ []) =
        some (⟨Datum.quoteText x, .literal⟩, (Datum.quoteText x).toList.length) := by
      rw [lexemeAt_quoteText x (by simp), String.length_toList]
    have hne : (Datum.quoteText x).toList ≠ [] := by simp [quoteText_toList]
    simpa [lex, Datum.literal] using
      go_lexeme (List.forall_mem_nil _) hne hq (go_nil (by simp))
  · exact unquoted_quoteText x

end Lexeme
end QueryShield
