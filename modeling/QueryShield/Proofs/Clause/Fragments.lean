import Mathlib
import QueryShield.Proofs.Clause.Checks
import QueryShield.Proofs.Guard.Semicolon
/-!
# What a bound fragment is

`ofFragment` binds a fragment lexeme by lexeme (`Binds`): each lexeme becomes one clause piece,
a literal a placeholder with its parameter.  A bound fragment therefore has one placeholder for
each parameter and closes no more parentheses than it opens (`ofFragment_facts`).  Its `OR`
mark depends on the lexemes alone: it is set when the keyword `OR` stands where every
parenthesis opened before it is closed (`orOutside`, `foldlM_topLevelOr`).  A fragment that is
not blank has a lexeme, and binds to clause text that is not blank (`ofFragment_nonblank`).
-/

namespace QueryShield
namespace BoundClause

open Text QueryShield.Lex

/-! ## A fragment with no lexeme -/

theorem checkGap_ok {gap : List Char} (h : checkGap gap = .ok ()) : ∀ c ∈ gap, isBlank c = true := by
  intro c hc
  by_contra hb
  simp only [Bool.not_eq_true] at hb
  have hmem := mem_trimChars hc hb
  unfold checkGap at h
  dsimp only at h
  split at h
  · rename_i hempty
    exact absurd (List.isEmpty_iff.1 hempty ▸ hmem) (by simp)
  · cases h

/-- A text that lexes to no lexeme at all is blank. -/
theorem go_eq_nil {prev : Option Char} {gap cs : List Char} (h : Lex.go prev gap cs = .ok []) :
    ∀ c ∈ gap ++ cs, isBlank c = true := by
  induction cs generalizing prev gap with
  | nil =>
    rw [Lex.go] at h
    cases hgap : checkGap gap.reverse with
    | error e => simp [hgap, Except.map] at h
    | ok u =>
      intro c hc
      simpa using checkGap_ok hgap c (by simpa using hc)
  | cons c cs ih =>
    rw [Lex.go] at h
    split at h
    · -- a lexeme is read, so the result is not empty
      split at h
      · cases h
      · dsimp only at h
        split at h <;> cases h
    · intro d hd
      have := ih h d
      simp only [List.mem_append, List.mem_cons] at hd this
      tauto

/-! ## What a bound fragment is made of -/

/-- Each step of a fold that appends a separator without `c` and then a piece counts `c` in
the pieces. -/
theorem count_foldl_append {c : Char} {f : String × Bool → String × LexemeKind → String × Bool}
    (hf : ∀ acc q, ∃ sp : String, (f acc q).1 = acc.1 ++ sp ++ q.1 ∧ sp.toList.count c = 0)
    (ps : List (String × LexemeKind)) (init : String × Bool) :
    (ps.foldl f init).1.toList.count c =
      init.1.toList.count c + (ps.flatMap fun q => q.1.toList).count c := by
  induction ps generalizing init with
  | nil => simp
  | cons q ps ih =>
    obtain ⟨sp, hsp, hcount⟩ := hf init q
    rw [List.foldl_cons, ih, hsp]
    simp [hcount]
    omega

/-- Joining pieces adds nothing but spaces. -/
theorem count_joinPieces {c : Char} (hc : c ≠ ' ') (ps : List (String × LexemeKind)) :
    (joinPieces ps).toList.count c = (ps.flatMap fun q => q.1.toList).count c := by
  unfold joinPieces
  rw [count_foldl_append, String.toList_empty, List.count_nil, Nat.zero_add]
  rintro ⟨out, glue⟩ ⟨text, kind⟩
  dsimp only
  split
  · exact ⟨"", by simp, by simp⟩
  · exact ⟨" ", by simp, List.count_eq_zero.2 (by simpa using hc)⟩

theorem parenDepth_append (d : Int) (ts us : List String) :
    parenDepth d (ts ++ us) = parenDepth (parenDepth d ts) us := by
  simp [parenDepth, List.foldl_append]

/-- A bound name holds no placeholder and no parenthesis. -/
theorem IsBoundName.counts {t : List Char} (h : IsBoundName t) :
    t.count '?' = 0 ∧ balance t = 0 := by
  have hnot : ∀ c ∈ ['?', '(', ')'], c ∉ t := by
    intro c hc hct
    rcases h.chars c hct with h' | h' | h' <;>
      simp only [List.mem_cons, List.not_mem_nil, or_false] at hc <;>
      rcases hc with rfl | rfl | rfl <;> exact absurd h' (by decide)
  refine ⟨List.count_eq_zero.2 (hnot '?' (by simp)), ?_⟩
  simp [balance, List.count_eq_zero.2 (hnot '(' (by simp)), List.count_eq_zero.2 (hnot ')' (by simp))]

/-- A connective, a comparison or a piece of punctuation, as the lexer writes it, is a clause
piece with no placeholder, and its parentheses are those of its punctuation. -/
theorem Lexeme.Shaped.other_piece {l : Lexeme} (hs : l.Shaped) (hk1 : l.kind ≠ .literal)
    (hk2 : l.kind ≠ .identifier) :
    ClausePiece l.text.toList ∧ l.text.toList.count '?' = 0 ∧
      balance l.text.toList = parenDepth 0 (parens [pieceOf l]) := by
  cases hk : l.kind with
  | literal => exact absurd hk hk1
  | identifier => exact absurd hk hk2
  | keyword =>
    simp only [Lexeme.Shaped, hk] at hs
    have hnot : ∀ c ∈ ['?', '(', ')'], c ∉ l.text.toList := by
      intro c hc hct
      have := hs.isNameStart c hct
      simp only [List.mem_cons, List.not_mem_nil, or_false] at hc
      rcases hc with rfl | rfl | rfl <;> exact absurd this (by decide)
    refine ⟨.connective hs, List.count_eq_zero.2 (hnot '?' (by simp)), ?_⟩
    simp [balance, parens, pieceOf, hk, List.count_eq_zero.2 (hnot '(' (by simp)),
      List.count_eq_zero.2 (hnot ')' (by simp))]
  | operator =>
    simp only [Lexeme.Shaped, hk] at hs
    refine ⟨.comparison hs, ?_⟩
    simp only [comparisons, List.mem_cons, List.not_mem_nil, or_false] at hs
    rcases hs with h | h | h | h | h | h | h <;> simp [h, balance, parens, pieceOf, hk]
  | punctuation =>
    simp only [Lexeme.Shaped, hk] at hs
    refine ⟨.punctuation hs, ?_⟩
    simp only [List.mem_cons, List.not_mem_nil, or_false] at hs
    rcases hs with h | h | h <;> simp [h, balance, parens, pieceOf, hk, parenStep]

/-- Lexemes of known shapes bind to clause pieces, one for each lexeme, with a placeholder for
each parameter and the parentheses of their punctuation. -/
theorem Binds.facts {clock : Stamp} {ls : List Lexeme} {ps : List (String × LexemeKind)}
    {vs : List Datum} (h : Binds clock ls ps vs) (hs : ∀ l ∈ ls, l.Shaped) :
    (∀ q ∈ ps, ClausePiece q.1.toList) ∧ ps.length = ls.length ∧
      (ps.flatMap fun q => q.1.toList).count '?' = vs.length ∧
      balance (ps.flatMap fun q => q.1.toList) = parenDepth 0 (parens ps) := by
  induction h with
  | nil => simp [balance, parens]
  | @literal l ls ps vs hk _ ih =>
    obtain ⟨h1, h2, h3, h4⟩ := ih fun l' hl' => hs l' (by simp [hl'])
    have hp : ClausePiece "?".toList := by simpa using ClausePiece.placeholder
    have hparens : parens (("?", LexemeKind.literal) :: ps) = parens ps := by simp [parens]
    refine ⟨?_, by simp [h2], by simp [h3], ?_⟩
    · intro q hq
      rcases List.mem_cons.1 hq with rfl | hq
      · exact hp
      · exact h1 q hq
    · rw [hparens, List.flatMap_cons, balance_append, h4]
      simp [balance]
  | @name l t ls ps vs hk ht _ ih =>
    obtain ⟨h1, h2, h3, h4⟩ := ih fun l' hl' => hs l' (by simp [hl'])
    have hshape := hs l (by simp)
    simp only [Lexeme.Shaped, hk] at hshape
    have hbound := nameText_bound hshape ht
    obtain ⟨hq, hb⟩ := hbound.counts
    have hparens : parens ((t, LexemeKind.identifier) :: ps) = parens ps := by simp [parens]
    refine ⟨?_, by simp [h2], by simp [hq, h3], ?_⟩
    · intro q hq'
      rcases List.mem_cons.1 hq' with rfl | hq'
      · exact .name hbound
      · exact h1 q hq'
    · rw [hparens, List.flatMap_cons, balance_append, h4, hb, Int.zero_add]
  | @other l ls ps vs hk1 hk2 _ ih =>
    obtain ⟨h1, h2, h3, h4⟩ := ih fun l' hl' => hs l' (by simp [hl'])
    obtain ⟨hp, hq, hb⟩ := Lexeme.Shaped.other_piece (hs l (by simp)) hk1 hk2
    have hparens : parens (pieceOf l :: ps) = parens [pieceOf l] ++ parens ps :=
      parens_append [pieceOf l] ps
    refine ⟨?_, by simp [h2], by simp [pieceOf, hq, h3], ?_⟩
    · intro q hq'
      rcases List.mem_cons.1 hq' with rfl | hq'
      · exact hp
      · exact h1 q hq'
    · rw [hparens, parenDepth_append, List.flatMap_cons, balance_append, h4]
      have hadd := parenDepth_add 0 (parenDepth 0 (parens [pieceOf l])) (parens ps)
      rw [Int.zero_add] at hadd
      rw [hadd, ← hb]
      simp only [pieceOf]
      omega

/-! ## An `OR` outside parentheses -/

/-- The punctuation among lexemes, in order. -/
def lexemeParens (ls : List Lexeme) : List String :=
  (ls.filter fun l => l.kind == .punctuation).map Lexeme.text

/-- Whether the keyword `OR` stands among the lexemes at a place where every parenthesis opened
before it is closed, the depth counted from `d`. -/
def orOutside (d : Int) (ls : List Lexeme) : Bool :=
  (List.range ls.length).any fun i =>
    (ls[i]?.any fun l => l.kind == .keyword && l.text == "OR") &&
      parenDepth d (lexemeParens (ls.take i)) == 0

@[simp] theorem orOutside_nil (d : Int) : orOutside d [] = false := rfl

theorem orOutside_cons (d : Int) (l : Lexeme) (ls : List Lexeme) :
    orOutside d (l :: ls) =
      ((l.kind == .keyword && l.text == "OR" && d == 0) ||
        orOutside (parenDepth d (lexemeParens [l])) ls) := by
  unfold orOutside
  rw [List.length_cons, List.range_succ_eq_map, List.any_cons, List.any_map]
  congr 2
  funext i
  have hsplit : lexemeParens (l :: ls.take i) = lexemeParens [l] ++ lexemeParens (ls.take i) := by
    show lexemeParens ([l] ++ ls.take i) = _
    unfold lexemeParens
    rw [List.filter_append, List.map_append]
  simp only [Function.comp, Nat.succ_eq_add_one, List.getElem?_cons_succ, List.take_succ_cons,
    hsplit, parenDepth_append]

/-- The fold over a fragment's lexemes, from a depth that is not negative, marks an `OR` exactly
when one stands outside its parentheses. -/
theorem foldlM_topLevelOr {clock : Stamp} {fragment : String} {ls : List Lexeme} :
    ∀ {ps : List (String × LexemeKind)} {vs : List Datum} {d : Int32} {o : Bool} {acc : Bound},
      0 ≤ d.toInt → ls.foldlM (bindLexeme clock fragment) (ps, vs, d, o) = .ok acc →
      acc.2.2.2 = (o || orOutside d.toInt ls) := by
  induction ls with
  | nil =>
    rintro ps vs d o acc - h
    cases h
    simp
  | cons l ls ih =>
    rintro ps vs d o acc hd h
    rw [List.foldlM_cons] at h
    obtain ⟨acc₁, hstep, h⟩ := exists_of_bind_eq_ok h
    rw [orOutside_cons]
    unfold bindLexeme at hstep
    -- the step changes the depth on punctuation and the mark on a keyword
    cases hk : l.kind with
    | literal =>
      simp only [hk, if_true, Except.ok.injEq] at hstep
      subst hstep
      simp [ih hd h, lexemeParens, hk, show (LexemeKind.literal == .keyword) = false from rfl]
    | identifier =>
      simp only [hk, reduceCtorEq, if_true, if_false] at hstep
      cases ht : nameText l.text with
      | error e => simp [ht, Except.map] at hstep
      | ok t =>
        simp only [ht, Except.map, Except.ok.injEq] at hstep
        subst hstep
        simp [ih hd h, lexemeParens, hk, show (LexemeKind.identifier == .keyword) = false from rfl]
    | punctuation =>
      simp only [hk, reduceCtorEq, if_true, if_false] at hstep
      split_ifs at hstep with hneg
      simp only [Except.ok.injEq] at hstep
      subst hstep
      -- a step that is not refused keeps the 32-bit depth equal to the integer one
      obtain ⟨hlo, hhi⟩ := (parenStep32_nonneg_iff hd).1 hneg
      have hd' : (parenStep32 d l.text).toInt = parenStep d.toInt l.text := by
        rw [toInt_parenStep32 hd, if_pos hhi]
      rw [ih (by rw [hd']; exact hlo) h, hd']
      simp [lexemeParens, hk, show (LexemeKind.punctuation == .keyword) = false from rfl]
    | keyword =>
      simp only [hk, reduceCtorEq, if_true, if_false, Except.ok.injEq] at hstep
      subst hstep
      rw [ih hd h, beq_zero_eq_toInt]
      simp [lexemeParens, hk, Bool.and_comm, Bool.or_assoc]
    | operator =>
      simp only [hk, reduceCtorEq, if_false, Except.ok.injEq] at hstep
      subst hstep
      simp [ih hd h, lexemeParens, hk, show (LexemeKind.operator == .keyword) = false from rfl]

theorem map_eq_ok {ε α β : Type} {x : Except ε α} {f : α → β} {b : β} (h : x.map f = .ok b) :
    ∃ a, x = .ok a ∧ f a = b := by
  cases x with
  | error e => cases h
  | ok a => exact ⟨a, rfl, by simpa [Except.map] using h⟩

/-- What a bound fragment is: its `OR` mark says whether an `OR` stands outside its
parentheses, its text closes no more parentheses than it opens and has one placeholder for each
parameter, and it is clause text when the fragment has a lexeme. -/
theorem ofFragment_facts {clock : Stamp} {fragment : String} {piece : Piece}
    (h : ofFragment clock fragment = .ok piece) :
    ∃ ls, Lexeme.lex fragment = .ok ls ∧ piece.topLevelOr = orOutside 0 ls ∧
      0 ≤ balance piece.clause.text.toList ∧
      piece.clause.placeholderCount = piece.clause.params.length ∧
      (ls ≠ [] → Spaced piece.clause.text.toList) := by
  have hspaced := ofFragment_spaced h
  rw [ofFragment_eq] at h
  obtain ⟨ls, hlex, h⟩ := exists_of_bind_eq_ok h
  obtain ⟨acc, hfold, rfl⟩ := map_eq_ok h
  obtain ⟨ps, vs, hbinds, hparens, h1, h2, -⟩ := binds_of_foldlM (by decide) hfold
  obtain ⟨hpieces, hlen, hcount, hbal⟩ := hbinds.facts (Lexeme.lex_shaped hlex)
  have hps : acc.1.reverse = ps := by simp [h1]
  have hvs : acc.2.1.reverse = vs := by simp [h2]
  have hjoin : ∀ c, c ≠ ' ' → (joinPieces ps).toList.count c = (ps.flatMap fun q => q.1.toList).count c :=
    fun c hc => count_joinPieces hc ps
  refine ⟨ls, hlex, by simpa [Int32.toInt_zero] using foldlM_topLevelOr (by decide) hfold, ?_, ?_, ?_⟩
  · -- the joined text has the parentheses of its pieces
    have hb : balance (joinPieces ps).toList = balance (ps.flatMap fun q => q.1.toList) := by
      simp only [balance, hjoin '(' (by decide), hjoin ')' (by decide)]
    dsimp only
    rw [hps, hb, hbal]
    exact hparens.depth_nonneg le_rfl
  · dsimp only [placeholderCount]
    rw [hps, hvs, hjoin '?' (by decide), hcount]
  · intro hne
    dsimp only at hspaced ⊢
    rw [hps] at hspaced ⊢
    rcases hspaced with hempty | hs
    · -- a piece starts with a character that is no blank, and joining keeps it
      obtain ⟨q, qs, rfl⟩ := List.exists_cons_of_ne_nil
        (List.ne_nil_of_length_pos (by rw [hlen]; exact List.length_pos_of_ne_nil hne))
      have hq := hpieces q (by simp)
      obtain ⟨c, r, hcr⟩ := List.exists_cons_of_ne_nil hq.ne_nil
      have hc : c ≠ ' ' := by
        intro hsp
        have := hq.not_blank c (by simp [hcr])
        rw [hsp] at this
        exact absurd this (by decide)
      have hpos := hjoin c hc
      rw [hempty] at hpos
      simp [hcr] at hpos
    · exact hs

/-- A fragment that is not blank binds, when it binds, to clause text. -/
theorem ofFragment_nonblank {clock : Stamp} {fragment : String} {piece : Piece}
    (hf : isBlankText fragment = false) (h : ofFragment clock fragment = .ok piece) :
    Spaced piece.clause.text.toList ∧ piece.clause.isEmpty = false := by
  obtain ⟨ls, hlex, -, -, -, hspaced⟩ := ofFragment_facts h
  have hne : ls ≠ [] := by
    rintro rfl
    have hblank := go_eq_nil hlex
    simp only [List.nil_append] at hblank
    simp only [isBlankText, List.all_eq_false] at hf
    obtain ⟨c, hc, hb⟩ := hf
    exact hb (hblank c hc)
  have hs := hspaced hne
  obtain ⟨c, hc, hb⟩ := hs.exists_not_blank
  refine ⟨hs, ?_⟩
  simp only [isEmpty, isBlankText]
  rw [Bool.eq_false_iff]
  intro hall
  have := List.all_eq_true.1 hall c hc
  rw [hb] at this
  cases this

end BoundClause
end QueryShield
