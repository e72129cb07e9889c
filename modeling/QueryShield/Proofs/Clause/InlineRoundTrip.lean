import Mathlib
import QueryShield.Proofs.Clause.Composition
import QueryShield.Proofs.Clause.Literals

/-!
# Inline clauses bind back

`renderInline` writes a bound clause with each placeholder replaced by its parameter's SQL
literal.  Binding that text again as one clause gives the clause back (`ofText_renderInline`)
when

* every double parameter is written with a point (`Datum.Relexable`),
* no name part was quoted with backticks, which the lexer refuses, and
* no ` AND ` stands right after `(` or a comparison, or right before `)`, `,` or a comparison
  (`andGlued`): joining fragments puts ` AND ` there, where a single fragment would put no
  space.

The clause text is its pieces joined (`joinAfter`), and the inline text is the same pieces with
each placeholder filled (`Rejoined`).  Such pieces are read back by the lexer, comparisons
perhaps regrouped, and bound back to the pieces and parameters they came from
(`Rejoined.ofFragment`).  A bound fragment is `Rejoined` with the pieces its lexemes bind to
(`ofFragment_rejoined`); parentheses around it and ` AND ` between two of them keep that
(`Rejoined.paren`, `Rejoined.and`), so the whole clause is `Rejoined` too.
-/

namespace QueryShield
namespace BoundClause

open Text QueryShield.Lex

variable {clock : Stamp}

/-! ## Pieces -/

/-- A piece that is no comparison holds no `?`: only placeholders do. -/
theorem Lexable.not_question {p : String × LexemeKind} (hp : Lexable p) (hk : p.2 ≠ .literal) :
    '?' ∉ p.1.toList := by
  cases hp with
  | quoted s => exact absurd rfl hk
  | number _ => exact absurd rfl hk
  | @name t hw _ =>
    obtain ⟨parts, -, hparts, hw⟩ := hw
    intro hq
    rw [hw] at hq
    rcases mem_of_mem_intercalate hq with h | ⟨part, hpart, h⟩
    · simp at h
    · exact absurd ((hparts part hpart).1.isNameChar '?' h) (by decide)
  | keyword hw => exact fun hq => absurd (hw.1.isNameStart '?' hq) (by decide)
  | punctuation ht =>
    simp only [List.mem_cons, List.not_mem_nil, or_false] at ht
    rcases ht with rfl | rfl | rfl <;> simp
  | comparison hop => exact fun hq => absurd (comparisons_chars _ hop '?' hq) (by decide)

/-- A literal starts with a quote, a digit or a minus sign: it is no parenthesis or comma. -/
theorem Lexable.literal_not_punctuation {t : String} (hp : Lexable (t, .literal)) :
    t ≠ "(" ∧ t ≠ ")" ∧ t ≠ "," := by
  obtain ⟨c, cs, hcs, hc⟩ : ∃ c cs, t.toList = c :: cs ∧ c ≠ '(' ∧ c ≠ ')' ∧ c ≠ ',' := by
    cases hp with
    | quoted s => exact ⟨'\'', _, quoteText_toList s, by decide⟩
    | number hw =>
      obtain ⟨c, cs, hcs, -, hplain⟩ := hw.head
      exact ⟨c, cs, hcs, hplain.2.2.2⟩
  refine ⟨fun he => hc.1 ?_, fun he => hc.2.1 ?_, fun he => hc.2.2 ?_⟩ <;> subst he <;>
    simp at hcs <;> exact hcs.1.symm

/-- A piece starts with a character that is no blank. -/
theorem Lexable.head_not_blank {p : String × LexemeKind} (hp : Lexable p) :
    ∃ c cs, p.1.toList = c :: cs ∧ isBlank c = false := by
  cases hp with
  | quoted s => exact ⟨'\'', _, quoteText_toList s, by decide⟩
  | @number t hw =>
    obtain ⟨sign, ds, frac, hw, hsign, hne, hds, -⟩ := hw
    obtain ⟨d, ds', rfl⟩ := List.exists_cons_of_ne_nil hne
    rcases hsign with rfl | rfl
    · refine ⟨d, ds' ++ frac, by simp [hw], ?_⟩
      exact ascii_forall (fun c => c.isDigit = true → isBlank c = false) (by decide)
        (toNat_lt_of_isDigit (hds d (by simp))) (hds d (by simp))
    · exact ⟨'-', d :: (ds' ++ frac), by simp [hw], by decide⟩
  | @name t hw _ =>
    obtain ⟨c, cs, hcs, hc⟩ := hw.dotted.head
    exact ⟨c, cs, hcs, isNameChar_not_blank (isNameChar_of_isNameStart hc)⟩
  | @keyword t hw =>
    obtain ⟨c, cs, hcs⟩ := List.exists_cons_of_ne_nil hw.1.ne_nil
    exact ⟨c, cs, hcs, isNameChar_not_blank (isNameChar_of_isNameStart
      (hw.1.isNameStart c (by simp [hcs])))⟩
  | @punctuation t ht =>
    simp only [List.mem_cons, List.not_mem_nil, or_false] at ht
    rcases ht with rfl | rfl | rfl
    · exact ⟨'(', [], by simp, by decide⟩
    · exact ⟨')', [], by simp, by decide⟩
    · exact ⟨',', [], by simp, by decide⟩
  | @comparison t hop =>
    obtain ⟨c, cs, hcs⟩ := List.exists_cons_of_ne_nil (comparisons_head t hop).1
    refine ⟨c, cs, hcs, ?_⟩
    have hc := comparisons_chars t hop c (by simp [hcs])
    simp only [comparisonChars, List.mem_cons, List.not_mem_nil, or_false] at hc
    rcases hc with rfl | rfl | rfl | rfl <;> decide

/-- A piece that binds back to itself: one the lexer reads on its own and, if it is a name,
one that binds to its own text. -/
def Rebinds (p : String × LexemeKind) : Prop :=
  Lexable p ∧ (p.2 = .identifier → nameText p.1 = .ok p.1)

theorem Filled.append {ps vs qs ps' vs' qs'} (h : Filled ps vs qs) (h' : Filled ps' vs' qs') :
    Filled (ps ++ ps') (vs ++ vs') (qs ++ qs') := by
  induction h with
  | nil => exact h'
  | literal _ ih => exact .literal ih
  | other hp _ ih => exact .other hp ih

theorem Filled.ne_nil {ps vs qs} (h : Filled ps vs qs) (hne : ps ≠ []) : qs ≠ [] := by
  cases h <;> simp_all

/-- The literal pieces of placeheld pieces are placeholders. -/
theorem Filled.placeholder {ps vs qs} (h : Filled ps vs qs) :
    ∀ p ∈ ps, p.2 = .literal → p = ("?", .literal) := by
  induction h with
  | nil => simp
  | literal _ ih =>
    intro p hp hk
    rcases List.mem_cons.1 hp with rfl | hp
    · rfl
    · exact ih p hp hk
  | other hq _ ih =>
    intro p hp hk
    rcases List.mem_cons.1 hp with rfl | hp
    · exact absurd hk hq
    · exact ih p hp hk

/-! ## Clause text as joined pieces -/

/-- Clause text `t` with parameters `vs` as the pieces `ps` it is joined from: filling the
placeholders with the parameters' literals gives the pieces `qs` of the inline text, every other
piece binds back to itself, and the parentheses never close more than they opened. -/
structure Rejoined (t : List Char) (vs : List Datum) (ps qs : List (String × LexemeKind)) :
    Prop where
  text : t = joinAfter true ps
  filled : Filled ps vs qs
  pieces : ∀ p ∈ ps, p.2 ≠ .literal → Rebinds p
  parens : ParensOk 0 (parens ps)

variable {t : List Char} {vs : List Datum} {ps qs : List (String × LexemeKind)}

/-- The pieces of the inline text are read by the lexer on their own. -/
theorem Rejoined.lexable (h : Rejoined t vs ps qs) (hvs : ∀ v ∈ vs, Datum.Relexable clock v) :
    ∀ q ∈ qs, Lexable q := by
  intro q hq
  rcases h.filled.mem hq with ⟨hk, v, hv, hq1⟩ | ⟨hk, hq'⟩
  · obtain ⟨a, b⟩ := q
    simp only at hk hq1
    subst hk hq1
    exact (hvs v hv).lexable
  · exact (h.pieces q hq' hk).1

/-- The inline text of clause text is its filled pieces joined. -/
theorem Rejoined.renderInline (h : Rejoined t vs ps qs)
    (hvs : ∀ v ∈ vs, Datum.Relexable clock v) :
    (BoundClause.renderInline ⟨String.ofList t, vs⟩).toList = joinAfter true qs := by
  rw [BoundClause.renderInline, String.toList_join, String.toList_ofList, h.text]
  refine render_joinAfter h.filled (fun p hp hk => (h.pieces p hp hk).1.not_question hk) ?_ true
  exact fun v hv => (hvs v hv).lexable.literal_not_punctuation

/-- Lexemes whose names bind to themselves bind to their own pieces, placeholders for the
literals, and to the values of their literals. -/
theorem binds_relexed {ls : List Lexeme}
    (hnames : ∀ l ∈ ls, l.kind = .identifier → nameText l.text = .ok l.text) :
    Binds clock ls ((ls.map pieceOf).map unfill)
      ((literalTexts (ls.map pieceOf)).map fun s => literalValue clock ⟨s, .literal⟩) := by
  induction ls with
  | nil => exact .nil
  | cons l ls ih =>
    have ih := ih fun l' hl' => hnames l' (by simp [hl'])
    obtain ⟨text, kind⟩ := l
    cases kind with
    | literal => simpa [pieceOf, unfill, literalTexts] using Binds.literal (l := ⟨text, .literal⟩) rfl ih
    | identifier =>
      simpa [pieceOf, unfill, literalTexts] using
        Binds.name (l := ⟨text, .identifier⟩) rfl (hnames _ (by simp) rfl) ih
    | keyword => simpa [pieceOf, unfill, literalTexts] using Binds.other (l := ⟨text, .keyword⟩) (by simp) (by simp) ih
    | punctuation => simpa [pieceOf, unfill, literalTexts] using Binds.other (l := ⟨text, .punctuation⟩) (by simp) (by simp) ih
    | operator => simpa [pieceOf, unfill, literalTexts] using Binds.other (l := ⟨text, .operator⟩) (by simp) (by simp) ih

/-- A lexeme of the lexer has text, and a placeholder too. -/
theorem unfill_pieceOf_ne_empty {l : Lexeme} (hl : l.Shaped) : (unfill (pieceOf l)).1 ≠ "" := by
  unfold unfill pieceOf
  split
  · simp
  · rename_i hk
    have hne : l.text.toList ≠ [] := by
      cases hkind : l.kind with
      | literal => exact absurd hkind hk
      | identifier =>
        simp only [Lexeme.Shaped, hkind] at hl
        obtain ⟨c, cs, hcs, -⟩ := hl.head
        simp [hcs]
      | _ => exact (Lexeme.Shaped.other_piece hl (by simp [hkind]) (by simp [hkind])).1.ne_nil
    simpa using hne

/-- **Inline text binds back.**  The filled pieces of rejoined clause text, joined, bind to the
clause text and its parameters. -/
theorem Rejoined.ofFragment (h : Rejoined t vs ps qs) (hvs : ∀ v ∈ vs, Datum.Relexable clock v)
    (hopen : (BoundClause.parens ps).count "(" < 2 ^ 31)
    {fragment : String} (hfrag : fragment.toList = joinAfter true qs) :
    ∃ o, BoundClause.ofFragment clock fragment = .ok ⟨⟨String.ofList t, vs⟩, o⟩ := by
  -- the lexer reads the filled pieces back, runs of comparisons perhaps regrouped
  obtain ⟨ls, hgo, hreg⟩ := go_joinAfter _ qs rfl (h.lexable hvs) true none [] (by simp) (by simp)
  have hlex : Lexeme.lex fragment = .ok ls := by rw [Lexeme.lex, hfrag]; exact hgo
  -- a name the lexer finds is a piece of the clause text, which binds to itself
  have hnames : ∀ l ∈ ls, l.kind = .identifier → nameText l.text = .ok l.text := by
    intro l hl hk
    have hmem := hreg.mem (List.mem_map_of_mem hl) (by simp [pieceOf, hk])
    rcases h.filled.mem hmem with ⟨hk', -⟩ | ⟨-, hps⟩
    · simp [pieceOf, hk] at hk'
    · exact (h.pieces _ hps (by simp [pieceOf, hk])).2 hk
  have hregu : Regrouped ps ((ls.map pieceOf).map unfill) := by
    have := hreg.map_unfill
    rwa [h.filled.unfill_eq] at this
  -- the literals read back are the parameters
  have hvals : (literalTexts (ls.map pieceOf)).map (fun s => literalValue clock ⟨s, .literal⟩) =
      vs := by
    rw [← hreg.literalTexts_eq, h.filled.literalTexts_eq, List.map_map]
    exact (List.map_congr_left fun v hv => (hvs v hv).literalValue_literal).trans (List.map_id vs)
  have hbinds : Binds clock ls _ _ := binds_relexed hnames
  rw [hvals] at hbinds
  -- too few openings for the 32-bit depth to wrap
  obtain ⟨d, o, -, hfold⟩ := @foldlM_of_binds clock fragment _ _ _ hbinds [] [] 0 false
    (by rw [Int32.toInt_zero, ← hregu.parens_eq]; exact h.parens) (by decide)
    (by rw [Int32.toInt_zero, ← hregu.parens_eq]; omega)
  have hne : ∀ p ∈ (ls.map pieceOf).map unfill, p.1 ≠ "" := by
    simp only [List.map_map, List.mem_map, Function.comp, forall_exists_index, and_imp,
      forall_apply_eq_imp_iff₂]
    exact fun l hl => unfill_pieceOf_ne_empty (Lexeme.lex_shaped hlex l hl)
  refine ⟨o, ?_⟩
  rw [ofFragment_eq, hlex, ok_bind, hfold]
  simp only [Except.map, List.append_nil, List.reverse_reverse, joinPieces_eq hne,
    ← hregu.joinAfter_eq, ← h.text]

/-! ## Parentheses and ` AND ` -/

/-- The keyword that joins fragments. -/
def andPiece : String × LexemeKind := ("AND", .keyword)

theorem rebinds_andPiece : Rebinds andPiece := by
  refine ⟨.keyword ⟨⟨by simp, "AND", by simp [connectiveWords], by decide⟩, .inr ⟨"AND", ?_, ?_⟩⟩,
    by simp [andPiece]⟩
  · simp [connectives]
  · simp [foldKey]

/-- Clause text in parentheses is rejoined with parentheses around its pieces. -/
theorem Rejoined.paren (h : Rejoined t vs ps qs) :
    Rejoined ('(' :: (t ++ [')'])) vs (("(", .punctuation) :: (ps ++ [(")", .punctuation)]))
      (("(", .punctuation) :: (qs ++ [(")", .punctuation)])) where
  text := by
    have hs : spaceBefore true ("(", .punctuation) = false := by simp [spaceBefore]
    have hg : gluesAfter ("(", .punctuation) = true := by simp [gluesAfter]
    have hclose : ∀ g, joinAfter g [(")", .punctuation)] = [')'] := by
      intro g
      simp [joinAfter_cons, spaceBefore]
    rw [joinAfter_cons, hs, hg, joinAfter_append, hclose, h.text]
    simp
  filled := .other (p := ("(", .punctuation)) (by decide)
    (by simpa using h.filled.append (.other (p := (")", .punctuation)) (by decide) .nil))
  pieces := by
    intro p hp hk
    simp only [List.mem_cons, List.mem_append, List.not_mem_nil, or_false] at hp
    rcases hp with rfl | hp | rfl
    · exact ⟨.punctuation (by simp), by simp⟩
    · exact h.pieces p hp hk
    · exact ⟨.punctuation (by simp), by simp⟩
  parens := by
    have hps : BoundClause.parens (("(", .punctuation) :: (ps ++ [(")", .punctuation)])) =
        "(" :: (BoundClause.parens ps ++ [")"]) := by
      simp [BoundClause.parens]
    -- inside the parentheses the depth is one more than without them
    have hin : ParensOk 1 (BoundClause.parens ps) := by simpa using h.parens.add (e := 1) (by norm_num)
    have hopen : parenStep 0 "(" = 1 := by simp [parenStep]
    have hclose : parenStep (parenDepth 1 (BoundClause.parens ps)) ")" =
        parenDepth 0 (BoundClause.parens ps) := by
      have hdepth := parenDepth_add 0 1 (BoundClause.parens ps)
      rw [Int.zero_add] at hdepth
      simp [hdepth, parenStep]
    rw [hps]
    refine .cons (by rw [hopen]; norm_num) ?_
    rw [hopen]
    exact hin.append (.cons (by rw [hclose]; exact h.parens.depth_nonneg le_rfl) .nil)

theorem joinAfter_false_of_spaced {ps : List (String × LexemeKind)} (hne : ps ≠ [])
    (hhead : ∀ p ∈ ps.head?, spaceBefore false p = true) :
    joinAfter false ps = ' ' :: joinAfter true ps := by
  obtain ⟨p, ps, rfl⟩ := List.exists_cons_of_ne_nil hne
  have hs : spaceBefore true p = false := by simp [spaceBefore]
  rw [joinAfter_cons, joinAfter_cons, hhead p rfl, hs]
  simp

/-- Two rejoined clause texts joined by ` AND ` are rejoined, when the first does not end with a
piece that glues and the second starts with a piece that takes a space. -/
theorem Rejoined.and {t₁ t₂ : List Char} {vs₁ vs₂ : List Datum}
    {ps₁ ps₂ qs₁ qs₂ : List (String × LexemeKind)}
    (h₁ : Rejoined t₁ vs₁ ps₁ qs₁) (h₂ : Rejoined t₂ vs₂ ps₂ qs₂) (hne₁ : ps₁ ≠ [])
    (hne₂ : ps₂ ≠ []) (hlast : ∀ p ∈ ps₁.getLast?, gluesAfter p = false)
    (hhead : ∀ p ∈ ps₂.head?, spaceBefore false p = true) :
    Rejoined (t₁ ++ " AND ".toList ++ t₂) (vs₁ ++ vs₂) (ps₁ ++ andPiece :: ps₂)
      (qs₁ ++ andPiece :: qs₂) where
  text := by
    have hg : (ps₁.getLast?.map gluesAfter).getD true = false := by
      cases hl : ps₁.getLast? with
      | none => exact absurd (List.getLast?_eq_none_iff.1 hl) hne₁
      | some p => simp [hlast p hl]
    have hs : spaceBefore false andPiece = true := rfl
    have hga : gluesAfter andPiece = false := rfl
    rw [joinAfter_append, hg, joinAfter_cons, hs, hga, joinAfter_false_of_spaced hne₂ hhead,
      h₁.text, h₂.text]
    simp [andPiece]
  filled := h₁.filled.append (.other (by decide) h₂.filled)
  pieces := by
    intro p hp hk
    rcases List.mem_append.1 hp with hp | hp
    · exact h₁.pieces p hp hk
    · rcases List.mem_cons.1 hp with rfl | hp
      · exact rebinds_andPiece
      · exact h₂.pieces p hp hk
  parens := by
    have hps : BoundClause.parens (ps₁ ++ andPiece :: ps₂) =
        BoundClause.parens ps₁ ++ BoundClause.parens ps₂ := by
      simp [BoundClause.parens, andPiece]
    rw [hps]
    refine h₁.parens.append ?_
    simpa using h₂.parens.add (h₁.parens.depth_nonneg le_rfl)

/-! ## Where ` AND ` takes its spaces -/

/-- The characters after which joining puts no space: `(` and those of comparisons. -/
def gluingLast : List Char := ['(', '<', '>', '=', '!']

/-- The characters before which joining puts no space: `)`, `,` and those of comparisons. -/
def gluingFirst : List Char := [')', ',', '<', '>', '=', '!']

/-- Whether ` AND ` stands in the text right after `(` or a comparison character, or right
before `)`, `,` or a comparison character: places where joining pieces would put no space. -/
def andGlued : List Char → Bool
  | [] => false
  | a :: rest =>
    (gluingLast.contains a && rest.take 5 == " AND ".toList) ||
      ((a :: rest).take 5 == " AND ".toList && (rest.drop 4).head?.any gluingFirst.contains) ||
      andGlued rest

theorem andGlued_append {u w : List Char} (h : andGlued (u ++ w) = false) : andGlued w = false := by
  induction u with
  | nil => exact h
  | cons a u ih =>
    simp only [List.cons_append, andGlued, Bool.or_eq_false_iff] at h
    exact ih h.2

theorem andGlued_last {u w : List Char} (h : andGlued (u ++ " AND ".toList ++ w) = false) :
    ∀ a ∈ u.getLast?, a ∉ gluingLast := by
  intro a ha hmem
  obtain ⟨u', rfl⟩ := List.getLast?_eq_some_iff.1 ha
  have h' := andGlued_append (u := u') (by simpa using h)
  simp [andGlued, hmem] at h'

theorem andGlued_head {u w : List Char} (h : andGlued (u ++ " AND ".toList ++ w) = false) :
    ∀ b ∈ w.head?, b ∉ gluingFirst := by
  intro b hb hmem
  obtain ⟨w', rfl⟩ : ∃ w', w = b :: w' := by
    cases w with
    | nil => simp at hb
    | cons c w' => exact ⟨w', by simpa using hb⟩
  have h' := andGlued_append (u := u) (by simpa using h)
  simp [andGlued, hmem] at h'

/-- Every piece of rejoined text has text. -/
theorem Rejoined.toList_ne_nil (h : Rejoined t vs ps qs) : ∀ p ∈ ps, p.1.toList ≠ [] := by
  intro p hp
  by_cases hk : p.2 = .literal
  · rw [h.filled.placeholder p hp hk]
    simp
  · exact (h.pieces p hp hk).1.toList_ne_nil

/-- Rejoined text that does not end with a gluing character ends with a piece that asks for no
glue. -/
theorem Rejoined.last_not_gluing (h : Rejoined t vs ps qs)
    (hlast : ∀ a ∈ t.getLast?, a ∉ gluingLast) : ∀ p ∈ ps.getLast?, gluesAfter p = false := by
  intro p hp
  obtain ⟨ps', rfl⟩ := List.getLast?_eq_some_iff.1 hp
  rw [Bool.eq_false_iff]
  intro hg
  -- the piece is `(` or a comparison
  have hend : ∀ a ∈ p.1.toList.getLast?, a ∈ gluingLast := by
    simp only [gluesAfter, Bool.or_eq_true, beq_iff_eq] at hg
    rcases hg with hparen | hop
    · simp [hparen, gluingLast]
    · obtain ⟨hlex, -⟩ := h.pieces p (by simp) (by simp [hop])
      cases hlex with
      | comparison hc =>
        intro a ha
        have := comparisons_chars _ hc a (List.mem_of_getLast? ha)
        simp only [comparisonChars, List.mem_cons, List.not_mem_nil, or_false] at this
        rcases this with rfl | rfl | rfl | rfl <;> simp [gluingLast]
      | _ => simp at hop
  -- and the text ends with it
  have hne := h.toList_ne_nil p (by simp)
  obtain ⟨a, ha⟩ := Option.isSome_iff_exists.1 (List.getLast?_isSome.2 hne)
  refine hlast a ?_ (hend a ha)
  rw [h.text, joinAfter_append, joinAfter_cons, joinAfter_nil, List.append_nil,
    List.getLast?_append_of_ne_nil _ (by simp [hne]), List.getLast?_append_of_ne_nil _ hne, ha]
  rfl

/-- Rejoined text that does not start with a gluing character starts with a piece that takes a
space. -/
theorem Rejoined.head_spaced (h : Rejoined t vs ps qs)
    (hhead : ∀ b ∈ t.head?, b ∉ gluingFirst) : ∀ p ∈ ps.head?, spaceBefore false p = true := by
  intro p hp
  obtain ⟨ps', rfl⟩ : ∃ ps', ps = p :: ps' := by
    cases ps with
    | nil => simp at hp
    | cons q ps' => exact ⟨ps', by simpa using hp⟩
  rw [← Bool.not_eq_false]
  intro hs
  -- the piece is `)`, `,` or a comparison
  have hstart : ∀ b ∈ p.1.toList.head?, b ∈ gluingFirst := by
    simp only [spaceBefore, Bool.false_or, Bool.not_eq_false', Bool.or_eq_true, beq_iff_eq] at hs
    rcases hs with (hclose | hcomma) | hop
    · simp [hclose, gluingFirst]
    · simp [hcomma, gluingFirst]
    · obtain ⟨hlex, -⟩ := h.pieces p (by simp) (by simp [hop])
      cases hlex with
      | comparison hc =>
        intro b hb
        have := (comparisons_head _ hc).2 b hb
        simp only [comparisonChars, List.mem_cons, List.not_mem_nil, or_false] at this
        rcases this with rfl | rfl | rfl | rfl <;> simp [gluingFirst]
      | _ => simp at hop
  -- and the text starts with it
  have hne := h.toList_ne_nil p (by simp)
  obtain ⟨b, hb⟩ := Option.isSome_iff_exists.1 (List.isSome_head?.2 hne)
  refine hhead b ?_ (hstart b hb)
  have hs0 : spaceBefore true p = false := by simp [spaceBefore]
  rw [h.text, joinAfter_cons, hs0, if_neg Bool.false_ne_true, List.nil_append,
    List.head?_append_of_ne_nil _ hne, hb]
  rfl

/-- Texts joined by ` AND `, each rejoined, are rejoined when no ` AND ` is glued: the pieces
are the texts' pieces with the keyword between them. -/
theorem rejoined_intercalate {items : List (List Char × List Datum)} (hne : items ≠ [])
    (h : ∀ i ∈ items, '`' ∉ i.1 → ∃ ps qs, ps ≠ [] ∧ Rejoined i.1 i.2 ps qs)
    (htick : '`' ∉ " AND ".toList.intercalate (items.map Prod.fst))
    (hand : andGlued (" AND ".toList.intercalate (items.map Prod.fst)) = false) :
    ∃ ps qs, ps ≠ [] ∧
      Rejoined (" AND ".toList.intercalate (items.map Prod.fst)) (items.flatMap Prod.snd) ps qs := by
  induction items with
  | nil => exact absurd rfl hne
  | cons i items ih =>
    cases items with
    | nil => simpa using h i (by simp) (by simpa using htick)
    | cons j items =>
      -- the first text, ` AND `, then the others joined
      have hsplit : " AND ".toList.intercalate ((i :: j :: items).map Prod.fst) =
          i.1 ++ " AND ".toList ++ " AND ".toList.intercalate ((j :: items).map Prod.fst) := by
        simp [List.intercalate_cons_cons]
      rw [hsplit] at htick hand ⊢
      simp only [List.mem_append, not_or] at htick
      obtain ⟨ps₁, qs₁, hne₁, h₁⟩ := h i (by simp) htick.1.1
      obtain ⟨ps₂, qs₂, hne₂, h₂⟩ := ih (by simp) (fun i' hi' => h i' (by simp [hi'])) htick.2
        (andGlued_append hand)
      refine ⟨ps₁ ++ andPiece :: ps₂, qs₁ ++ andPiece :: qs₂, by simp, ?_⟩
      rw [List.flatMap_cons]
      exact h₁.and h₂ hne₁ hne₂ (h₁.last_not_gluing (andGlued_last hand))
        (h₂.head_spaced (andGlued_head hand))

/-! ## Bound fragments and clauses are rejoined -/

theorem exists_of_forall₂_mem {α β : Type} {R : α → β → Prop} {l₁ : List α} {l₂ : List β}
    (h : List.Forall₂ R l₁ l₂) {b : β} (hb : b ∈ l₂) : ∃ a ∈ l₁, R a b := by
  induction h with
  | nil => simp at hb
  | cons hr _ ih =>
    rcases List.mem_cons.1 hb with rfl | hb
    · exact ⟨_, List.mem_cons_self, hr⟩
    · obtain ⟨a, ha, hra⟩ := ih hb
      exact ⟨a, List.mem_cons_of_mem _ ha, hra⟩

theorem mem_intercalate_of_mem {c : Char} {sep l : List Char} {ls : List (List Char)}
    (hl : l ∈ ls) (hc : c ∈ l) : c ∈ sep.intercalate ls := by
  induction ls with
  | nil => simp at hl
  | cons l' ls ih =>
    cases ls with
    | nil => simp_all
    | cons l'' ls =>
      rw [List.intercalate_cons_cons]
      rcases List.mem_cons.1 hl with rfl | hl
      · simp [hc]
      · simp [ih hl]

/-- A bound name with no backtick is the name as written: no part was quoted, so every part
passed the screen. -/
theorem namePart_unquoted {p : List Char} {seg : String} (hp : IsNamePart p)
    (h : namePart (String.ofList p) = .ok seg) (htick : '`' ∉ seg.toList) :
    seg = String.ofList p ∧ Screen.searchFamilies p Families.symbolsAndKeywords = .clean := by
  unfold namePart at h
  split at h
  · cases h
    simp at htick
  · split at h
    · rename_i hsafe
      cases h
      rw [Screen.ensureSafe, inspect_namePart hp, toCheck_eq_ok] at hsafe
      exact ⟨rfl, hsafe⟩
    · cases h

theorem nameText_unquoted {w t : String} (hw : IsDottedName w.toList) (h : nameText w = .ok t)
    (htick : '`' ∉ t.toList) : t = w ∧ IsScreenedName w.toList := by
  obtain ⟨parts, hne, hparts, hweq⟩ := hw
  have hsplit : w.toList.splitOn '.' = parts := by
    rw [hweq]
    exact List.splitOn_intercalate '.' (fun p hp => (hparts p hp).not_dot) hne
  rw [nameText, hsplit] at h
  obtain ⟨segs, hsegs, h⟩ := exists_of_bind_eq_ok h
  cases h
  -- part by part, each segment is its part
  have key : ∀ (ps : List (List Char)) (ss : List String), (∀ p ∈ ps, IsNamePart p) →
      (∀ s ∈ ss, '`' ∉ s.toList) → List.Forall₂ (fun a b => namePart a = .ok b) (ps.map String.ofList) ss →
      ss = ps.map String.ofList ∧
        ∀ p ∈ ps, Screen.searchFamilies p Families.symbolsAndKeywords = .clean := by
    intro ps
    induction ps with
    | nil =>
      intro ss _ _ hf
      cases hf
      simp
    | cons p ps ih =>
      intro ss hp hs hf
      cases hf with
      | cons hseg hrest =>
        obtain ⟨rfl, hclean⟩ := namePart_unquoted (hp p (by simp)) hseg (hs _ (by simp))
        obtain ⟨rfl, hcleans⟩ := ih _ (fun q hq => hp q (by simp [hq]))
          (fun s hs' => hs s (by simp [hs'])) hrest
        refine ⟨rfl, fun q hq => ?_⟩
        rcases List.mem_cons.1 hq with rfl | hq
        · exact hclean
        · exact hcleans q hq
  have hsegs' : ∀ s ∈ segs, '`' ∉ s.toList := by
    intro s hs hmem
    refine htick ?_
    rw [String.toList_intercalate]
    exact mem_intercalate_of_mem (List.mem_map_of_mem hs) hmem
  obtain ⟨rfl, hclean⟩ := key parts segs hparts hsegs' (mapM_eq_ok_iff.1 hsegs)
  refine ⟨?_, ⟨parts, hne, fun p hp => ⟨hparts p hp, hclean p hp⟩, hweq⟩⟩
  rw [← String.toList_inj, String.toList_intercalate, hweq, List.map_map]
  simp [Function.comp_def]

theorem Binds.exists_filled {ls : List Lexeme} {ps : List (String × LexemeKind)} {vs : List Datum}
    (h : Binds clock ls ps vs) : ∃ qs, Filled ps vs qs := by
  induction h with
  | nil => exact ⟨[], .nil⟩
  | literal _ _ ih =>
    obtain ⟨qs, hq⟩ := ih
    exact ⟨_, .literal hq⟩
  | name _ _ _ ih =>
    obtain ⟨qs, hq⟩ := ih
    exact ⟨_, .other (by simp) hq⟩
  | other hk _ _ ih =>
    obtain ⟨qs, hq⟩ := ih
    exact ⟨_, .other (by simpa [pieceOf] using hk) hq⟩

/-- Each parameter of bound lexemes is the value of one of their literals. -/
theorem Binds.mem_params {ls : List Lexeme} {ps : List (String × LexemeKind)} {vs : List Datum}
    (h : Binds clock ls ps vs) {v : Datum} (hv : v ∈ vs) :
    ∃ l ∈ ls, l.kind = .literal ∧ v = literalValue clock l := by
  induction h with
  | nil => simp at hv
  | @literal l ls ps vs hk _ ih =>
    rcases List.mem_cons.1 hv with rfl | hv
    · exact ⟨l, by simp, hk, rfl⟩
    · obtain ⟨l', hl', hk', rfl⟩ := ih hv
      exact ⟨l', by simp [hl'], hk', rfl⟩
  | name _ _ _ ih | other _ _ _ ih =>
    obtain ⟨l', hl', hk', rfl⟩ := ih hv
    exact ⟨l', by simp [hl'], hk', rfl⟩

/-- Lexemes of the lexer bind to pieces that bind back to themselves, when no bound name has a
backtick. -/
theorem Binds.rebinds {ls : List Lexeme} {ps : List (String × LexemeKind)} {vs : List Datum}
    (h : Binds clock ls ps vs)
    (hls : ∀ l ∈ ls, l.Shaped ∧ (l.kind = .identifier → Lexicon.isClauseWord l.text = false) ∧
      (l.kind = .keyword → IsKeywordText l.text.toList))
    (htick : ∀ p ∈ ps, '`' ∉ p.1.toList) : ∀ p ∈ ps, p.2 ≠ .literal → Rebinds p := by
  induction h with
  | nil => simp
  | literal _ _ ih =>
    intro p hp hk
    rcases List.mem_cons.1 hp with rfl | hp
    · exact absurd rfl hk
    · exact ih (fun l hl => hls l (by simp [hl])) (fun q hq => htick q (by simp [hq])) p hp hk
  | @name l t ls ps vs hk ht _ ih =>
    intro p hp hk'
    rcases List.mem_cons.1 hp with rfl | hp
    · -- a name bound with no backtick is the name the lexer read
      obtain ⟨hshape, hclause, -⟩ := hls l (by simp)
      simp only [Lexeme.Shaped, hk] at hshape
      obtain ⟨rfl, hscreened⟩ := nameText_unquoted hshape ht (htick (t, .identifier) (by simp))
      exact ⟨.name hscreened (hclause hk), fun _ => ht⟩
    · exact ih (fun l hl => hls l (by simp [hl])) (fun q hq => htick q (by simp [hq])) p hp hk'
  | @other l ls ps vs hk1 hk2 _ ih =>
    intro p hp hk'
    rcases List.mem_cons.1 hp with rfl | hp
    · -- a keyword, a parenthesis or comma, or a comparison
      obtain ⟨hshape, -, hkeyword⟩ := hls l (by simp)
      refine ⟨?_, fun hk => absurd hk hk2⟩
      cases hk : l.kind with
      | literal => exact absurd hk hk1
      | identifier => exact absurd hk hk2
      | keyword => simpa [pieceOf, hk] using Lexable.keyword (hkeyword hk)
      | punctuation =>
        simp only [Lexeme.Shaped, hk] at hshape
        simpa [pieceOf, hk] using Lexable.punctuation hshape
      | operator =>
        simp only [Lexeme.Shaped, hk] at hshape
        simpa [pieceOf, hk] using Lexable.comparison hshape
    · exact ih (fun l hl => hls l (by simp [hl])) (fun q hq => htick q (by simp [hq])) p hp hk'

theorem subset_joinAfter {p : String × LexemeKind} {ps : List (String × LexemeKind)} (hp : p ∈ ps)
    (glue : Bool) : p.1.toList ⊆ joinAfter glue ps := by
  induction ps generalizing glue with
  | nil => simp at hp
  | cons q ps ih =>
    rw [joinAfter_cons]
    rcases List.mem_cons.1 hp with rfl | hp
    · exact fun c hc => by simp [hc]
    · exact fun c hc => by simp [ih hp _ hc]

/-- Every opening parenthesis among the pieces is one of their joined text. -/
theorem count_parens_le_joinAfter (ps : List (String × LexemeKind)) (glue : Bool) :
    (BoundClause.parens ps).count "(" ≤ (joinAfter glue ps).count '(' := by
  induction ps generalizing glue with
  | nil => simp [BoundClause.parens]
  | cons p ps ih =>
    have hp : (BoundClause.parens [p]).count "(" ≤ p.1.toList.count '(' := by
      obtain ⟨t, k⟩ := p
      by_cases hk : k = .punctuation
      · by_cases ht : t = "(" <;> simp [BoundClause.parens, hk, ht]
      · simp [BoundClause.parens, hk]
    calc (BoundClause.parens (p :: ps)).count "(" =
          (BoundClause.parens [p]).count "(" + (BoundClause.parens ps).count "(" := by
          rw [show p :: ps = [p] ++ ps from rfl, parens_append, List.count_append]
      _ ≤ p.1.toList.count '(' + (joinAfter (gluesAfter p) ps).count '(' :=
          Nat.add_le_add hp (ih _)
      _ ≤ (joinAfter glue (p :: ps)).count '(' := by
          rw [joinAfter_cons, List.count_append, List.count_append]
          omega

/-- A bound fragment, lexeme by lexeme: its lexemes bind to pieces whose joined text is its
text, and to its parameters, with parentheses that never close more than they opened. -/
theorem ofFragment_binds {f : String} {piece : Piece}
    (h : BoundClause.ofFragment clock f = .ok piece) :
    ∃ ls ps, Lexeme.lex f = .ok ls ∧ Binds clock ls ps piece.clause.params ∧
      ParensOk 0 (BoundClause.parens ps) ∧ piece.clause.text = joinPieces ps := by
  rw [ofFragment_eq] at h
  obtain ⟨ls, hlex, h⟩ := exists_of_bind_eq_ok h
  obtain ⟨acc, hfold, rfl⟩ := map_eq_ok h
  obtain ⟨ps, vs, hbinds, hparens, h1, h2, -⟩ := binds_of_foldlM (by decide) hfold
  rw [Int32.toInt_zero] at hparens
  refine ⟨ls, ps, hlex, ?_, hparens, ?_⟩
  · simpa [h2] using hbinds
  · simp [h1]

/-- A bound fragment with no backtick is rejoined from the pieces its lexemes bind to. -/
theorem ofFragment_rejoined {f : String} {piece : Piece}
    (h : BoundClause.ofFragment clock f = .ok piece) (htick : '`' ∉ piece.clause.text.toList) :
    ∃ ps qs, Rejoined piece.clause.text.toList piece.clause.params ps qs := by
  obtain ⟨ls, ps, hlex, hbinds, hparens, htext⟩ := ofFragment_binds h
  obtain ⟨hpieces, -, -, -⟩ := hbinds.facts (Lexeme.lex_shaped hlex)
  have hjoin : piece.clause.text.toList = joinAfter true ps := by
    rw [htext, joinPieces_eq fun p hp => by simpa using (hpieces p hp).ne_nil, String.toList_ofList]
  obtain ⟨qs, hfilled⟩ := hbinds.exists_filled
  have hls : ∀ l ∈ ls, l.Shaped ∧ (l.kind = .identifier → Lexicon.isClauseWord l.text = false) ∧
      (l.kind = .keyword → IsKeywordText l.text.toList) := fun l hl =>
    ⟨Lexeme.lex_shaped hlex l hl, go_forall (fun _ _ _ _ hx => lexemeAt_relexable hx) hlex l hl⟩
  refine ⟨ps, qs, ⟨hjoin, hfilled, hbinds.rebinds hls ?_, hparens⟩⟩
  intro p hp hmem
  exact htick (hjoin ▸ subset_joinAfter hp true hmem)

/-- The parameters of a bound fragment are relexable, when its doubles are written with a
point. -/
theorem ofFragment_relexable {f : String} {piece : Piece}
    (h : BoundClause.ofFragment clock f = .ok piece)
    (hfloat : ∀ x, Datum.float x ∈ piece.clause.params → '.' ∈ x.plainText.toList) :
    ∀ v ∈ piece.clause.params, Datum.Relexable clock v := by
  obtain ⟨ls, ps, hlex, hbinds, -, -⟩ := ofFragment_binds h
  intro v hv
  obtain ⟨l, hl, hk, rfl⟩ := hbinds.mem_params hv
  refine relexable_literalValue ?_ fun x hx => hfloat x (hx ▸ hv)
  exact go_forall (P := fun l => l.kind = .literal → _) (fun _ _ _ _ hx => lexemeAt_literal hx) hlex
    l hl hk

/-- A fragment's text as it stands among the others, in parentheses or not, is rejoined too. -/
theorem rejoined_wrapText (several : Bool) {p : Piece}
    (h : Rejoined p.clause.text.toList p.clause.params ps qs) (hne : ps ≠ []) :
    ∃ ps' qs', ps' ≠ [] ∧ Rejoined (wrapText several p).toList p.clause.params ps' qs' := by
  unfold wrapText
  split
  · exact ⟨_, _, List.cons_ne_nil _ _, by simpa using h.paren⟩
  · exact ⟨ps, qs, hne, h⟩

/-- A bound clause with no backtick and no glued ` AND ` is rejoined from the pieces of its
fragments, with the keyword between them. -/
theorem ofFilter_rejoined {filter : RowFilter} {c : BoundClause}
    (h : ofFilter clock filter = .ok c) (hne : filter.parts ≠ [])
    (htick : '`' ∉ c.text.toList) (hand : andGlued c.text.toList = false) :
    ∃ ps qs, ps ≠ [] ∧ Rejoined c.text.toList c.params ps qs := by
  obtain ⟨pieces, hps, -, rfl⟩ := (ofFilter_ok_iff hne).1 h
  generalize decide (filter.parts.length > 1) = several at htick hand ⊢
  -- the clause is the fragments' texts joined by ` AND `, with their parameters in order
  have htext : (joinClause several pieces).text.toList = " AND ".toList.intercalate
      ((pieces.map fun p => ((wrapText several p).toList, p.clause.params)).map Prod.fst) := by
    rw [joinClause_toList, List.map_map]
    rfl
  have hparams : (joinClause several pieces).params =
      (pieces.map fun p => ((wrapText several p).toList, p.clause.params)).flatMap Prod.snd := by
    simp [joinClause, List.flatMap_map]
  have hpieces : pieces ≠ [] := by
    intro hnil
    rw [hnil] at hps
    exact hne (List.forall₂_nil_right_iff.1 hps)
  rw [htext] at htick hand ⊢
  rw [hparams]
  refine rejoined_intercalate (by simpa using hpieces) ?_ htick hand
  intro i hi hitick
  obtain ⟨p, hp, rfl⟩ := List.mem_map.1 hi
  obtain ⟨f, hf, hfrag⟩ := exists_of_forall₂_mem hps hp
  have hwrap : '`' ∉ p.clause.text.toList := by
    intro hmem
    apply hitick
    unfold wrapText
    split <;> simp [hmem]
  obtain ⟨ps, qs, hre⟩ := ofFragment_rejoined hfrag hwrap
  -- a fragment that is not blank has pieces
  have hnonempty : ps ≠ [] := by
    rintro rfl
    have hempty := (ofFragment_nonblank (parts_nonblank hf) hfrag).2
    have htext : p.clause.text = "" := by
      rw [← String.toList_inj, hre.text]
      rfl
    simp [isEmpty, htext, isBlankText] at hempty
  exact rejoined_wrapText several hre hnonempty

/-- The parameters of a bound clause are relexable, when its doubles are written with a
point. -/
theorem ofFilter_relexable {filter : RowFilter} {c : BoundClause}
    (h : ofFilter clock filter = .ok c)
    (hfloat : ∀ x, Datum.float x ∈ c.params → '.' ∈ x.plainText.toList) :
    ∀ v ∈ c.params, Datum.Relexable clock v := by
  by_cases hne : filter.parts = []
  · rw [ofFilter_of_parts_nil hne] at h
    cases h
    simp [empty]
  · obtain ⟨pieces, hps, -, rfl⟩ := (ofFilter_ok_iff hne).1 h
    intro v hv
    obtain ⟨p, hp, hv⟩ := List.mem_flatMap.1 hv
    obtain ⟨f, -, hfrag⟩ := exists_of_forall₂_mem hps hp
    exact ofFragment_relexable hfrag
      (fun x hx => hfloat x (List.mem_flatMap.2 ⟨p, hp, hx⟩)) v hv

/-- **Inline clauses bind back.**  A clause bound from any filter, written inline with its
parameters' literals in place of its placeholders and bound again as one clause, gives the same
text and the same parameters, provided its doubles are written with a point, none of its name
parts is quoted with backticks, and no ` AND ` in it stands right after `(` or a comparison or
right before `)`, `,` or a comparison, and it opens parentheses fewer than `2^31` times, short
of the depth at which binding's 32-bit count wraps. -/
theorem ofText_renderInline {filter : RowFilter} {c : BoundClause}
    (h : ofFilter clock filter = .ok c)
    (hfloat : ∀ x, Datum.float x ∈ c.params → '.' ∈ x.plainText.toList)
    (htick : '`' ∉ c.text.toList) (hand : andGlued c.text.toList = false)
    (hopen : c.text.toList.count '(' < 2 ^ 31) :
    ofText clock c.renderInline = .ok c := by
  by_cases hne : filter.parts = []
  · -- no fragment: the empty clause, written as empty text
    rw [ofFilter_of_parts_nil hne] at h
    cases h
    exact ofFilter_of_parts_nil (by simp [RowFilter.parts, empty, renderInline, renderInline.go,
      isBlankText])
  · obtain ⟨ps, qs, hps, hre⟩ := ofFilter_rejoined h hne htick hand
    have hvs := ofFilter_relexable h hfloat
    have hrender : c.renderInline.toList = joinAfter true qs := by
      simpa using hre.renderInline hvs
    have hcount := count_parens_le_joinAfter ps true
    rw [← hre.text] at hcount
    obtain ⟨o, hfrag⟩ := hre.ofFragment hvs (by omega) hrender
    -- the inline text starts with its first piece, which starts with no blank
    have hblank : isBlankText c.renderInline = false := by
      obtain ⟨q, qs', rfl⟩ := List.exists_cons_of_ne_nil (hre.filled.ne_nil hps)
      obtain ⟨d, ds, hq, hd⟩ := (hre.lexable hvs q (by simp)).head_not_blank
      have hs0 : spaceBefore true q = false := by simp [spaceBefore]
      rw [joinAfter_cons, hs0, if_neg Bool.false_ne_true, List.nil_append, hq] at hrender
      simp [isBlankText, hrender, hd]
    have hcheck : c.sanityCheck = .ok () := by
      obtain ⟨pieces, -, hcheck, rfl⟩ := (ofFilter_ok_iff hne).1 h
      exact hcheck
    rw [ofText_ok_iff hblank]
    exact ⟨_, hfrag, by simpa using hcheck, by rw [String.ofList_toList]⟩

/-- Two fragments, the first with a quoted text, an `OR` and a double, the second with a
negative integer: written inline as `(name='b''ob' OR price<9.5) AND qty>=-3`, the clause binds
back to itself. -/
theorem ofText_renderInline_of_two_fragments :
    let clock : Stamp := ⟨2024, 1, 1, 0, 0, 0, 0⟩
    let c : BoundClause := ⟨"(name=? OR price<?) AND qty>=?",
      [.text "b'ob", .float ⟨0x4023000000000000⟩, .int (-3)]⟩
    ofFilter clock (.fragments ["name = 'b''ob' OR price < 9.5", "qty >= -3"]) = .ok c ∧
      (∀ x, Datum.float x ∈ c.params → '.' ∈ x.plainText.toList) ∧ '`' ∉ c.text.toList ∧
      andGlued c.text.toList = false ∧ c.text.toList.count '(' < 2 ^ 31 ∧
      ofText clock c.renderInline = .ok c := by
  intro clock c
  -- one kernel evaluation for the four computed facts
  have hrun : ofFilter clock (.fragments ["name = 'b''ob' OR price < 9.5", "qty >= -3"]) = .ok c ∧
      '.' ∈ (Binary64.plainText ⟨0x4023000000000000⟩).toList ∧ andGlued c.text.toList = false ∧
      c.text.toList.count '(' < 2 ^ 31 := by
    decide +kernel
  obtain ⟨h, hpoint, hand, hopen⟩ := hrun
  have hfloat : ∀ x, Datum.float x ∈ c.params → '.' ∈ x.plainText.toList := by
    simpa [c] using hpoint
  have htick : '`' ∉ c.text.toList := by simp [c]
  exact ⟨h, hfloat, htick, hand, hopen, ofText_renderInline h hfloat htick hand hopen⟩

/-- Inline text that binds to another clause, once for each condition of
`ofText_renderInline`: the double `1.0` is written `1` and binds back as an integer; the
reserved name `order` is written in backticks, which the lexer refuses; and the fragments `a =`
and `b = 1`, joined as `a= AND b=?`, are read back as one fragment, `a=AND b=?`. -/
theorem renderInline_binds_otherwise :
    let clock : Stamp := ⟨2024, 1, 1, 0, 0, 0, 0⟩
    (ofFilter clock (.clause "a = 1.0") = .ok ⟨"a=?", [.float ⟨0x3FF0000000000000⟩]⟩ ∧
      ofText clock (renderInline ⟨"a=?", [.float ⟨0x3FF0000000000000⟩]⟩) =
        .ok ⟨"a=?", [.int 1]⟩) ∧
    (ofFilter clock (.clause "order = 1") = .ok ⟨"`order`=?", [.int 1]⟩ ∧
      ofText clock (renderInline ⟨"`order`=?", [.int 1]⟩) = .error (.injection "`" .symbol)) ∧
    (ofFilter clock (.fragments ["a =", "b = 1"]) = .ok ⟨"a= AND b=?", [.int 1]⟩ ∧
      ofText clock (renderInline ⟨"a= AND b=?", [.int 1]⟩) = .ok ⟨"a=AND b=?", [.int 1]⟩) := by
  intro clock
  decide +kernel

end BoundClause
end QueryShield
