import Mathlib
import QueryShield.Proofs.Clause.Binding
/-!
# The checks on joined clause text

Before a clause is used, `sanityCheck` reads its whole text: the parentheses must balance, no
placeholder may stand before a backtick-quoted name, and there must be one placeholder for each
parameter.  Clause text is a sequence of clause pieces (`Spaced`), and on such text each check
can be cut where the text is cut.  A placeholder before a quoted name lies within one part, or
straddles the cut only after a final placeholder (`Spaced.placeholderBeforeQuotedName_append`);
the balance of parentheses is a sum over the parts (`balance_append`).  So joining texts by
` AND ` neither makes nor hides a failed check (`placeholderBeforeQuotedName_intercalate`,
`balance_intercalate`).
-/

namespace QueryShield
namespace BoundClause

open Text QueryShield.Lex

/-! ## A placeholder before a quoted name -/

/-- Whether a text starts with a backtick-quoted name: a backtick, characters up to the next
backtick, at least one, and that backtick. -/
def startsQuotedName (x : List Char) : Bool :=
  x.head? == some '`' &&
    (!(x.tail.takeWhile (· != '`')).isEmpty &&
      (x.tail.drop (x.tail.takeWhile (· != '`')).length).head? == some '`')

/-- Whether, after a placeholder, the text `w` is blanks, one at least, and a quoted name. -/
def quotedAfterBlank (w : List Char) : Bool :=
  (w.dropWhile isBlank).length < w.length && startsQuotedName (w.dropWhile isBlank)

theorem placeholderBeforeQuotedName_cons (c : Char) (rest : List Char) :
    placeholderBeforeQuotedName (c :: rest) =
      ((c == '?' && quotedAfterBlank rest) || placeholderBeforeQuotedName rest) := by
  by_cases hc : c = '?'
  · subst hc
    simp only [placeholderBeforeQuotedName, beq_self_eq_true, Bool.true_and, quotedAfterBlank]
    congr 2
    generalize rest.dropWhile isBlank = x
    rcases x with _ | ⟨d, x⟩
    · rfl
    · by_cases hd : d = '`'
      · subst hd
        rfl
      · simp [startsQuotedName, hd]
  · rw [placeholderBeforeQuotedName.eq_def]
    simp [hc]

/-! ## Clause pieces -/

theorem IsBoundName.chars {w : List Char} (h : IsBoundName w) :
    ∀ c ∈ w, isNameChar c = true ∨ c = '`' ∨ c = '.' := by
  obtain ⟨segs, -, hsegs, rfl⟩ := h
  intro c hc
  rcases mem_of_mem_intercalate hc with hdot | ⟨s, hs, hc⟩
  · exact .inr (.inr (List.mem_singleton.1 hdot))
  · rcases hsegs s hs with ⟨p, rfl, hp, -, -⟩ | ⟨hp, -⟩
    · simp only [List.cons_append, List.mem_cons, List.mem_append, List.not_mem_nil,
        or_false] at hc
      rcases hc with rfl | hc | rfl
      · exact .inr (.inl rfl)
      · exact .inl (hp.isNameChar c hc)
      · exact .inr (.inl rfl)
    · exact .inl (hp.isNameChar c hc)

/-- A clause piece has no blank. -/
theorem ClausePiece.not_blank {p : List Char} (h : ClausePiece p) : ∀ c ∈ p, isBlank c = false := by
  cases h with
  | placeholder =>
    intro c hc
    rw [List.mem_singleton.1 hc]
    decide
  | comparison hop =>
    simp only [comparisons, List.mem_cons, List.not_mem_nil, or_false] at hop
    rcases hop with rfl | rfl | rfl | rfl | rfl | rfl | rfl <;> simp <;> decide
  | punctuation hp =>
    simp only [List.mem_cons, List.not_mem_nil, or_false] at hp
    rcases hp with rfl | rfl | rfl <;> simp <;> decide
  | connective hw =>
    exact fun c hc => isNameChar_not_blank (isNameChar_of_isNameStart (hw.isNameStart c hc))
  | name hw =>
    intro c hc
    rcases hw.chars c hc with h | rfl | rfl
    · exact isNameChar_not_blank h
    · decide
    · decide

/-- A bound name starts with its first segment. -/
theorem IsBoundName.first {w : List Char} (h : IsBoundName w) :
    ∃ s t, IsNameSegment s ∧ w = s ++ t := by
  obtain ⟨segs, hne, hsegs, rfl⟩ := h
  obtain ⟨s, segs', rfl⟩ := List.exists_cons_of_ne_nil hne
  cases segs' with
  | nil => exact ⟨s, [], hsegs s (by simp), by simp⟩
  | cons s' segs' =>
    exact ⟨s, _, hsegs s (by simp), by rw [List.intercalate_cons_cons, List.append_assoc]⟩

theorem IsNameSegment.ne_nil {s : List Char} (h : IsNameSegment s) : s ≠ [] := by
  rcases h with ⟨p, rfl, -, -, -⟩ | ⟨⟨c, cs, rfl, -, -⟩, -⟩ <;> simp

theorem ClausePiece.ne_nil {p : List Char} (h : ClausePiece p) : p ≠ [] := by
  cases h with
  | placeholder => simp
  | comparison hop =>
    simp only [comparisons, List.mem_cons, List.not_mem_nil, or_false] at hop
    rcases hop with rfl | rfl | rfl | rfl | rfl | rfl | rfl <;> simp
  | punctuation hp =>
    simp only [List.mem_cons, List.not_mem_nil, or_false] at hp
    rcases hp with rfl | rfl | rfl <;> simp
  | connective hw => exact hw.ne_nil
  | name hw =>
    obtain ⟨s, t, hs, rfl⟩ := hw.first
    simp [hs.ne_nil]

/-- Only the placeholder holds a `?`, and only the parentheses hold `(` or `)`. -/
theorem ClausePiece.eq_of_mem {p : List Char} (h : ClausePiece p) {c : Char}
    (hc : c ∈ ['?', '(', ')']) (hcp : c ∈ p) : p = [c] := by
  simp only [List.mem_cons, List.not_mem_nil, or_false] at hc
  cases h with
  | placeholder => rw [List.mem_singleton.1 hcp]
  | comparison hop =>
    simp only [comparisons, List.mem_cons, List.not_mem_nil, or_false] at hop
    rcases hop with rfl | rfl | rfl | rfl | rfl | rfl | rfl <;>
      rcases hc with rfl | rfl | rfl <;> simp at hcp
  | punctuation hp =>
    simp only [List.mem_cons, List.not_mem_nil, or_false] at hp
    rcases hp with rfl | rfl | rfl <;> rcases hc with rfl | rfl | rfl <;> simp at hcp ⊢
  | connective hw =>
    have := hw.isNameStart c hcp
    rcases hc with rfl | rfl | rfl <;> exact absurd this (by decide)
  | name hw =>
    rcases hw.chars c hcp with h | h | h <;> rcases hc with rfl | rfl | rfl <;>
      exact absurd h (by decide)

theorem ClausePiece.eq_of_question {p : List Char} (h : ClausePiece p) (hq : '?' ∈ p) :
    p = ['?'] :=
  h.eq_of_mem (by simp) hq

/-- A piece that starts with a backtick is a name whose first segment is quoted. -/
theorem ClausePiece.quoted_head {p : List Char} (h : ClausePiece p) (hq : p.head? = some '`') :
    ∃ q r, p = '`' :: q ++ '`' :: r ∧ q ≠ [] ∧ '`' ∉ q := by
  have hmem : '`' ∈ p := List.mem_of_mem_head? hq
  cases h with
  | placeholder => simp at hq
  | comparison hop =>
    simp only [comparisons, List.mem_cons, List.not_mem_nil, or_false] at hop
    rcases hop with rfl | rfl | rfl | rfl | rfl | rfl | rfl <;> simp at hq
  | punctuation hp =>
    simp only [List.mem_cons, List.not_mem_nil, or_false] at hp
    rcases hp with rfl | rfl | rfl <;> simp at hq
  | connective hw => exact absurd (hw.isNameStart '`' hmem) (by decide)
  | name hw =>
    obtain ⟨s, t, hs, rfl⟩ := hw.first
    rcases hs with ⟨q, rfl, hq', -, -⟩ | ⟨⟨c, cs, rfl, hc, -⟩, -⟩
    · refine ⟨q, t, by simp, ?_, fun hin => ?_⟩
      · obtain ⟨c, cs, rfl, -, -⟩ := hq'
        simp
      · exact absurd (hq'.isNameChar '`' hin) (by decide)
    · simp only [List.cons_append, List.head?_cons, Option.some.injEq] at hq
      subst hq
      exact absurd hc (by decide)

theorem takeWhile_ne_tick {q : List Char} (hq : '`' ∉ q) (v : List Char) :
    (q ++ '`' :: v).takeWhile (· != '`') = q := by
  induction q with
  | nil => simp
  | cons a q ih =>
    simp only [List.mem_cons, not_or] at hq
    rw [List.cons_append, List.takeWhile_cons, if_pos (by simpa using Ne.symm hq.1), ih hq.2]

/-- Whether a piece starts with a quoted name does not depend on what follows it. -/
theorem ClausePiece.startsQuotedName_append {p : List Char} (h : ClausePiece p) (w : List Char) :
    startsQuotedName (p ++ w) = startsQuotedName p := by
  by_cases hq : p.head? = some '`'
  · obtain ⟨q, r, rfl, hne, hnot⟩ := h.quoted_head hq
    have hw := takeWhile_ne_tick hnot (r ++ w)
    have hp := takeWhile_ne_tick hnot r
    simp only [List.cons_append, List.append_assoc] at hw hp ⊢
    simp [startsQuotedName, hw, hp]
  · obtain ⟨c, r, rfl⟩ := List.exists_cons_of_ne_nil h.ne_nil
    have hc : (c == '`') = false := by simpa using hq
    simp [startsQuotedName, hc]

/-! ## Placeholders before quoted names in clause text -/

theorem placeholderBeforeQuotedName_append_of_not_mem {u : List Char} (hu : '?' ∉ u)
    (w : List Char) : placeholderBeforeQuotedName (u ++ w) = placeholderBeforeQuotedName w := by
  induction u with
  | nil => rfl
  | cons c u ih =>
    simp only [List.mem_cons, not_or] at hu
    have hc : (c == '?') = false := by simpa using Ne.symm hu.1
    rw [List.cons_append, placeholderBeforeQuotedName_cons, ih hu.2, hc, Bool.false_and,
      Bool.false_or]

theorem quotedAfterBlank_piece {p : List Char} (h : ClausePiece p) (w : List Char) :
    quotedAfterBlank (p ++ w) = false := by
  obtain ⟨c, r, rfl⟩ := List.exists_cons_of_ne_nil h.ne_nil
  have hc : isBlank c = false := h.not_blank c (by simp)
  simp [quotedAfterBlank, hc]

theorem quotedAfterBlank_space {p : List Char} (h : ClausePiece p) (w : List Char) :
    quotedAfterBlank (' ' :: (p ++ w)) = startsQuotedName p := by
  obtain ⟨c, r, hcr⟩ := List.exists_cons_of_ne_nil h.ne_nil
  have hc : isBlank c = false := h.not_blank c (by simp [hcr])
  have hdrop : (' ' :: (p ++ w)).dropWhile isBlank = p ++ w := by
    rw [List.dropWhile_cons, if_pos (by decide), hcr, List.cons_append, List.dropWhile_cons,
      if_neg (by simp [hc])]
  simp [quotedAfterBlank, hdrop, h.startsQuotedName_append]

theorem ClausePiece.getLast_question {p : List Char} (h : ClausePiece p) :
    (p.getLast? == some '?') = (p == ['?']) := by
  by_cases hq : p = ['?']
  · simp [hq]
  · have hlast : p.getLast? ≠ some '?' := fun hl => hq (h.eq_of_question (List.mem_of_getLast? hl))
    simp [hq, hlast]

theorem placeholderBeforeQuotedName_piece {p : List Char} (h : ClausePiece p) (w : List Char) :
    placeholderBeforeQuotedName (p ++ w) =
      ((p == ['?'] && quotedAfterBlank w) || placeholderBeforeQuotedName w) := by
  by_cases hq : '?' ∈ p
  · rw [h.eq_of_question hq]
    simp [placeholderBeforeQuotedName_cons]
  · have hne : (p == ['?']) = false := by
      simp only [beq_eq_false_iff_ne]
      rintro rfl
      simp at hq
    rw [placeholderBeforeQuotedName_append_of_not_mem hq, hne, Bool.false_and, Bool.false_or]

theorem placeholderBeforeQuotedName_piece_self {p : List Char} (h : ClausePiece p) :
    placeholderBeforeQuotedName p = false := by
  simpa [quotedAfterBlank, placeholderBeforeQuotedName] using placeholderBeforeQuotedName_piece h []

/-- In clause text a placeholder before a quoted name is found within the text; what follows
the text only matters after a final placeholder. -/
theorem Spaced.placeholderBeforeQuotedName_append {s : List Char} (hs : Spaced s)
    (w : List Char) :
    placeholderBeforeQuotedName (s ++ w) =
      (placeholderBeforeQuotedName s || (s.getLast? == some '?' && quotedAfterBlank w) ||
        placeholderBeforeQuotedName w) := by
  induction hs generalizing w with
  | piece hp =>
    rw [placeholderBeforeQuotedName_piece hp, placeholderBeforeQuotedName_piece_self hp,
      hp.getLast_question, Bool.false_or]
  | @glued s p hs hp ih =>
    have hlast : (s ++ p).getLast? = p.getLast? := List.getLast?_append_of_ne_nil _ hp.ne_nil
    have hself : quotedAfterBlank p = false := by simpa using quotedAfterBlank_piece hp []
    rw [List.append_assoc, ih, ih, placeholderBeforeQuotedName_piece hp,
      placeholderBeforeQuotedName_piece_self hp, quotedAfterBlank_piece hp, hself, hlast,
      hp.getLast_question]
    simp only [Bool.and_false, Bool.or_false, Bool.or_assoc]
  | @spaced s p hs hp ih =>
    have hlast : (s ++ ' ' :: p).getLast? = p.getLast? := by
      rw [show s ++ ' ' :: p = (s ++ [' ']) ++ p by simp,
        List.getLast?_append_of_ne_nil _ hp.ne_nil]
    have hspace : ∀ v, placeholderBeforeQuotedName (' ' :: v) = placeholderBeforeQuotedName v := by
      intro v
      rw [placeholderBeforeQuotedName_cons]
      simp
    have hq : quotedAfterBlank (' ' :: p) = startsQuotedName p := by
      simpa using quotedAfterBlank_space hp []
    rw [List.append_assoc, List.cons_append, ih, ih, hspace, hspace, quotedAfterBlank_space hp, hq,
      placeholderBeforeQuotedName_piece hp, placeholderBeforeQuotedName_piece_self hp, hlast,
      hp.getLast_question]
    simp only [Bool.or_false, Bool.or_assoc]

theorem placeholderBeforeQuotedName_and (w : List Char) :
    placeholderBeforeQuotedName (" AND ".toList ++ w) = placeholderBeforeQuotedName w :=
  placeholderBeforeQuotedName_append_of_not_mem (by decide) w

theorem quotedAfterBlank_and (w : List Char) : quotedAfterBlank (" AND ".toList ++ w) = false := by
  have hspace : isBlank ' ' = true := by decide
  have hletter : isBlank 'A' = false := by decide
  simp [quotedAfterBlank, startsQuotedName, hspace, hletter]

/-- Clause texts joined by ` AND ` hold a placeholder before a quoted name exactly when one of
them does: ` AND ` stands between a final placeholder and the next text. -/
theorem placeholderBeforeQuotedName_intercalate {ws : List (List Char)} (hws : ∀ w ∈ ws, Spaced w) :
    placeholderBeforeQuotedName (" AND ".toList.intercalate ws) = ws.any placeholderBeforeQuotedName := by
  induction ws with
  | nil => rfl
  | cons w ws ih =>
    cases ws with
    | nil => simp
    | cons w' ws =>
      rw [List.intercalate_cons_cons, List.append_assoc,
        (hws w (by simp)).placeholderBeforeQuotedName_append, placeholderBeforeQuotedName_and,
        quotedAfterBlank_and, ih fun v hv => hws v (by simp [hv])]
      simp

/-- Parentheses around clause text add no placeholder before a quoted name. -/
theorem Spaced.placeholderBeforeQuotedName_paren {w : List Char} (hw : Spaced w) :
    placeholderBeforeQuotedName ('(' :: w ++ [')']) = placeholderBeforeQuotedName w := by
  have hclose : isBlank ')' = false := by decide
  rw [List.cons_append, placeholderBeforeQuotedName_cons, hw.placeholderBeforeQuotedName_append]
  simp [quotedAfterBlank, placeholderBeforeQuotedName, hclose]

/-! ## Counting placeholders and parentheses -/

/-- Opening parentheses less closing ones. -/
def balance (t : List Char) : Int := (t.count '(' : Int) - (t.count ')' : Int)

@[simp] theorem balance_append (u v : List Char) : balance (u ++ v) = balance u + balance v := by
  simp only [balance, List.count_append]
  omega

@[simp] theorem balance_and : balance " AND ".toList = 0 := by decide

theorem balance_paren (w : List Char) : balance ('(' :: w ++ [')']) = balance w := by
  simp only [balance, List.cons_append, List.count_cons, List.count_append]
  simp

/-- Texts with no more closing than opening parentheses, joined by ` AND `: the joined text is
balanced exactly when each text is. -/
theorem balance_intercalate {ws : List (List Char)} (hws : ∀ w ∈ ws, 0 ≤ balance w) :
    0 ≤ balance (" AND ".toList.intercalate ws) ∧
      (balance (" AND ".toList.intercalate ws) = 0 ↔ ∀ w ∈ ws, balance w = 0) := by
  induction ws with
  | nil => simp [balance]
  | cons w ws ih =>
    obtain ⟨ih1, ih2⟩ := ih fun v hv => hws v (by simp [hv])
    have hw := hws w (by simp)
    cases ws with
    | nil => simpa using hw
    | cons w' ws =>
      rw [List.intercalate_cons_cons, balance_append, balance_append, balance_and]
      simp only [List.mem_cons, forall_eq_or_imp] at ih2 ⊢
      constructor
      · omega
      · rw [← ih2]
        omega

theorem sanityCheck_ok_iff (c : BoundClause) :
    c.sanityCheck = .ok () ↔
      balance c.text.toList = 0 ∧ placeholderBeforeQuotedName c.text.toList = false ∧
        c.placeholderCount = c.params.length := by
  unfold sanityCheck balance
  dsimp only
  split_ifs with hparen hquoted hcount
  · -- the parentheses do not balance
    simp only [bne_iff_ne, ne_eq] at hparen
    simp only [false_iff, not_and]
    intro h
    exact absurd (by omega) hparen
  all_goals simp_all

theorem Spaced.exists_not_blank {w : List Char} (h : Spaced w) : ∃ c ∈ w, isBlank c = false := by
  induction h with
  | piece hp =>
    obtain ⟨c, r, hcr⟩ := List.exists_cons_of_ne_nil hp.ne_nil
    exact ⟨c, by simp [hcr], hp.not_blank c (by simp [hcr])⟩
  | glued _ _ ih =>
    obtain ⟨c, hc, hb⟩ := ih
    exact ⟨c, List.mem_append_left _ hc, hb⟩
  | spaced _ _ ih =>
    obtain ⟨c, hc, hb⟩ := ih
    exact ⟨c, List.mem_append_left _ hc, hb⟩

end BoundClause
end QueryShield
