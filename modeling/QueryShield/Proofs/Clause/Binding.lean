import Mathlib
import QueryShield.Proofs.Clause.Grammar
import QueryShield.Proofs.Clause.Rejoining

/-!
# Binding a fragment, lexeme by lexeme

`ofFragment` folds a step over the lexemes of a fragment: a literal becomes a placeholder and a
parameter, a name is rewritten by `nameText`, the other lexemes stay, and a parenthesis that
takes the depth, a 32-bit signed count, negative is refused.  `bindLexeme` is that step as a
definition of its own (`ofFragment_eq`), and `Binds` says what a successful fold produces,
lexeme by lexeme, without the accumulator: a fold that succeeds binds every name and its
parentheses never close more than they opened (`binds_of_foldlM`); conversely such lexemes are
folded without failure when they open parentheses fewer than `2^31` times, short of the depth
at which the count wraps (`foldlM_of_binds`).
-/

namespace QueryShield

theorem ok_bind {ε α β : Type} (a : α) (f : α → Except ε β) : (Except.ok a >>= f) = f a := rfl

namespace BoundClause

open Text QueryShield.Lex

/-! ## Parenthesis depth -/

/-- The depth after a piece of punctuation. -/
def parenStep (d : Int) (t : String) : Int := if t = "(" then d + 1 else if t = ")" then d - 1 else d

/-- The depth after a sequence of punctuation. -/
def parenDepth (d : Int) (ts : List String) : Int := ts.foldl parenStep d

@[simp] theorem parenDepth_nil (d : Int) : parenDepth d [] = d := rfl

@[simp] theorem parenDepth_cons (d : Int) (t : String) (ts : List String) :
    parenDepth d (t :: ts) = parenDepth (parenStep d t) ts := rfl

/-- The depth after a piece of punctuation as the fold counts it, in 32 signed bits. -/
def parenStep32 (d : Int32) (t : String) : Int32 :=
  if t = "(" then d + 1 else if t = ")" then d - 1 else d

/-- From a depth that is not negative, the 32-bit count is the integer depth, or wraps to
`-2^31` once the integer depth reaches `2^31`. -/
theorem toInt_parenStep32 {d : Int32} {t : String} (hd : 0 ≤ d.toInt) :
    (parenStep32 d t).toInt =
      if parenStep d.toInt t < 2 ^ 31 then parenStep d.toInt t else -2 ^ 31 := by
  have hlt := d.toInt_lt
  unfold parenStep32 parenStep
  split_ifs <;> simp only [Int32.toInt_add, Int32.toInt_sub, Int32.toInt_one, Int.bmod] at * <;>
    split <;> omega

/-- The 32-bit step is refused exactly when the integer depth leaves `[0, 2^31)`. -/
theorem parenStep32_nonneg_iff {d : Int32} {t : String} (hd : 0 ≤ d.toInt) :
    ¬ parenStep32 d t < 0 ↔ 0 ≤ parenStep d.toInt t ∧ parenStep d.toInt t < 2 ^ 31 := by
  rw [Int32.lt_iff_toInt_lt, toInt_parenStep32 hd, Int32.toInt_zero]
  split_ifs <;> omega

/-- A 32-bit depth is zero exactly when its integer value is. -/
theorem beq_zero_eq_toInt (d : Int32) : (d == 0) = (d.toInt == 0) := by
  rw [Bool.eq_iff_iff, beq_iff_eq, beq_iff_eq, ← Int32.toInt_inj, Int32.toInt_zero]

/-- Punctuation that, from depth `d`, never goes below depth zero. -/
inductive ParensOk : Int → List String → Prop
  | nil {d : Int} : ParensOk d []
  | cons {d : Int} {t : String} {ts : List String} :
      0 ≤ parenStep d t → ParensOk (parenStep d t) ts → ParensOk d (t :: ts)

/-- The punctuation among the pieces, in order. -/
def parens (ps : List (String × LexemeKind)) : List String :=
  ps.filterMap fun p => if p.2 = .punctuation then some p.1 else none

theorem parenStep_add (d e : Int) (t : String) : parenStep (d + e) t = parenStep d t + e := by
  unfold parenStep
  split_ifs <;> omega

theorem parenDepth_add (d e : Int) (ts : List String) :
    parenDepth (d + e) ts = parenDepth d ts + e := by
  induction ts generalizing d with
  | nil => rfl
  | cons t ts ih => simp only [parenDepth, List.foldl_cons] at ih ⊢; rw [parenStep_add, ih]

theorem ParensOk.add {d e : Int} {ts : List String} (h : ParensOk d ts) (he : 0 ≤ e) :
    ParensOk (d + e) ts := by
  induction h with
  | nil => exact .nil
  | cons hd _ ih => exact .cons (by rw [parenStep_add]; omega) (by rw [parenStep_add]; exact ih)

theorem ParensOk.append {d : Int} {ts us : List String} (h : ParensOk d ts)
    (hus : ParensOk (parenDepth d ts) us) : ParensOk d (ts ++ us) := by
  induction h with
  | nil => exact hus
  | cons hd _ ih => exact .cons hd (ih hus)

theorem ParensOk.depth_nonneg {d : Int} {ts : List String} (h : ParensOk d ts) (hd : 0 ≤ d) :
    0 ≤ parenDepth d ts := by
  induction h with
  | nil => exact hd
  | cons hstep _ ih => exact ih hstep

theorem parens_append (ps qs : List (String × LexemeKind)) :
    parens (ps ++ qs) = parens ps ++ parens qs := by
  simp [parens]

theorem Regrouped.parens_eq {ps qs : List (String × LexemeKind)} (h : Regrouped ps qs) :
    parens ps = parens qs := by
  have hops : ∀ ops : List String, parens (operators ops) = [] := by
    intro ops
    simp [parens, operators]
  induction h with
  | nil => rfl
  | cons _ _ ih => simp only [parens, List.filterMap_cons] at ih ⊢; rw [ih]
  | run _ _ _ _ ih => rw [parens_append, parens_append, hops, hops, ih]

/-! ## The step -/

/-- The pieces, parameters, depth and top-level `OR` of a fragment bound so far. -/
abbrev Bound := List (String × LexemeKind) × List Datum × Int32 × Bool

/-- One step of binding a fragment: a literal becomes a placeholder and a parameter, a name its
bound text, and a parenthesis changes the 32-bit depth, which may not read negative. -/
def bindLexeme (clock : Stamp) (fragment : String) (acc : Bound) (l : Lexeme) :
    Except GuardError Bound :=
  if l.kind = .literal then
    .ok (("?", .literal) :: acc.1, literalValue clock l :: acc.2.1, acc.2.2)
  else if l.kind = .identifier then
    (nameText l.text).map fun t => ((t, .identifier) :: acc.1, acc.2)
  else if l.kind = .punctuation then
    if parenStep32 acc.2.2.1 l.text < 0 then
      .error (.malformed ("unbalanced parentheses in '" ++ fragment ++ "'"))
    else .ok ((l.text, .punctuation) :: acc.1, acc.2.1, parenStep32 acc.2.2.1 l.text, acc.2.2.2)
  else if l.kind = .keyword then
    .ok ((l.text, .keyword) :: acc.1, acc.2.1, acc.2.2.1,
      acc.2.2.2 || (acc.2.2.1 == 0 && l.text == "OR"))
  else .ok ((l.text, l.kind) :: acc.1, acc.2)

/-- A fragment is bound by folding `bindLexeme` over its lexemes. -/
theorem ofFragment_eq (clock : Stamp) (fragment : String) :
    ofFragment clock fragment = (Lexeme.lex fragment >>= fun ls =>
      (ls.foldlM (bindLexeme clock fragment) ([], [], 0, false)).map fun acc =>
        ⟨⟨joinPieces acc.1.reverse, acc.2.1.reverse⟩, acc.2.2.2⟩) := by
  unfold ofFragment
  congr 1
  funext ls
  show _ = (fun acc : Bound => (⟨⟨joinPieces acc.1.reverse, acc.2.1.reverse⟩, acc.2.2.2⟩ : Piece)) <$> _
  rw [map_eq_bind_pure_comp]
  dsimp only
  congr 1
  congr 1
  funext acc l
  obtain ⟨ps, vs, d, o⟩ := acc
  unfold bindLexeme
  cases l.kind <;> simp [parenStep32]
  -- a name: binding it is mapping over its bound text
  rfl

/-! ## What a fold produces -/

/-- Lexemes, the pieces they bind to and the parameters they give, in order: a literal gives a
placeholder and its value, a name its bound text, and the other lexemes stay as they are. -/
inductive Binds (clock : Stamp) : List Lexeme → List (String × LexemeKind) → List Datum → Prop
  | nil : Binds clock [] [] []
  | literal {l : Lexeme} {ls : List Lexeme} {ps : List (String × LexemeKind)} {vs : List Datum} :
      l.kind = .literal → Binds clock ls ps vs →
      Binds clock (l :: ls) (("?", .literal) :: ps) (literalValue clock l :: vs)
  | name {l : Lexeme} {t : String} {ls : List Lexeme} {ps : List (String × LexemeKind)}
      {vs : List Datum} :
      l.kind = .identifier → nameText l.text = .ok t → Binds clock ls ps vs →
      Binds clock (l :: ls) ((t, .identifier) :: ps) vs
  | other {l : Lexeme} {ls : List Lexeme} {ps : List (String × LexemeKind)} {vs : List Datum} :
      l.kind ≠ .literal → l.kind ≠ .identifier → Binds clock ls ps vs →
      Binds clock (l :: ls) (pieceOf l :: ps) vs

variable {clock : Stamp} {fragment : String}

/-- A fold that succeeds from a depth that is not negative binds its lexemes, with parentheses
that never go below the depth it started from; the 32-bit depth it ends with is the integer
one. -/
theorem binds_of_foldlM {ls : List Lexeme} :
    ∀ {ps : List (String × LexemeKind)} {vs : List Datum} {d : Int32} {o : Bool} {acc : Bound},
      0 ≤ d.toInt → ls.foldlM (bindLexeme clock fragment) (ps, vs, d, o) = .ok acc →
      ∃ ps' vs', Binds clock ls ps' vs' ∧ ParensOk d.toInt (parens ps') ∧
        acc.1 = ps'.reverse ++ ps ∧ acc.2.1 = vs'.reverse ++ vs ∧
        acc.2.2.1.toInt = parenDepth d.toInt (parens ps') := by
  induction ls with
  | nil =>
    rintro ps vs d o acc - h
    cases h
    exact ⟨[], [], .nil, .nil, rfl, rfl, rfl⟩
  | cons l ls ih =>
    rintro ps vs d o acc hd h
    rw [List.foldlM_cons] at h
    obtain ⟨acc₁, hstep, h⟩ := exists_of_bind_eq_ok h
    unfold bindLexeme at hstep
    -- one case per kind of lexeme; only a name and a parenthesis can fail
    cases hk : l.kind with
    | literal =>
      simp only [hk, if_true, Except.ok.injEq] at hstep
      subst hstep
      obtain ⟨ps', vs', hbinds, hparens, h1, h2, h3⟩ := ih hd h
      refine ⟨_, _, .literal hk hbinds, ?_, ?_, ?_, ?_⟩
      · simpa [parens] using hparens
      · simp [h1]
      · simp [h2]
      · simpa [parens] using h3
    | identifier =>
      simp only [hk, reduceCtorEq, if_true, if_false] at hstep
      cases ht : nameText l.text with
      | error e => simp [ht, Except.map] at hstep
      | ok t =>
        simp only [ht, Except.map, Except.ok.injEq] at hstep
        subst hstep
        obtain ⟨ps', vs', hbinds, hparens, h1, h2, h3⟩ := ih hd h
        refine ⟨_, _, .name hk ht hbinds, ?_, ?_, ?_, ?_⟩
        · simpa [parens] using hparens
        · simp [h1]
        · simp [h2]
        · simpa [parens] using h3
    | punctuation =>
      simp only [hk, reduceCtorEq, if_true, if_false] at hstep
      split_ifs at hstep with hneg
      simp only [Except.ok.injEq] at hstep
      subst hstep
      -- the step stayed in range, so the 32-bit depth is the integer one
      obtain ⟨hlo, hhi⟩ := (parenStep32_nonneg_iff hd).1 hneg
      have hd' : (parenStep32 d l.text).toInt = parenStep d.toInt l.text := by
        rw [toInt_parenStep32 hd, if_pos hhi]
      obtain ⟨ps', vs', hbinds, hparens, h1, h2, h3⟩ := ih (by rw [hd']; exact hlo) h
      have hpiece : parens (pieceOf l :: ps') = l.text :: parens ps' := by
        simp [parens, pieceOf, hk]
      refine ⟨_, _, .other (by simp [hk]) (by simp [hk]) hbinds, ?_, ?_, ?_, ?_⟩
      · rw [hpiece]
        exact .cons hlo (by rw [← hd']; exact hparens)
      · simp [h1, pieceOf, hk]
      · simp [h2]
      · rw [hpiece, h3, hd']
        rfl
    | keyword =>
      simp only [hk, reduceCtorEq, if_true, if_false, Except.ok.injEq] at hstep
      subst hstep
      obtain ⟨ps', vs', hbinds, hparens, h1, h2, h3⟩ := ih hd h
      refine ⟨_, _, .other (by simp [hk]) (by simp [hk]) hbinds, ?_, ?_, ?_, ?_⟩
      · simpa [parens, pieceOf, hk] using hparens
      · simp [h1, pieceOf, hk]
      · simp [h2]
      · simpa [parens, pieceOf, hk] using h3
    | operator =>
      simp only [hk, reduceCtorEq, if_false, Except.ok.injEq] at hstep
      subst hstep
      obtain ⟨ps', vs', hbinds, hparens, h1, h2, h3⟩ := ih hd h
      refine ⟨_, _, .other (by simp [hk]) (by simp [hk]) hbinds, ?_, ?_, ?_, ?_⟩
      · simpa [parens, pieceOf, hk] using hparens
      · simp [h1, pieceOf, hk]
      · simp [h2]
      · simpa [parens, pieceOf, hk] using h3

/-- A step rises by at most the openings it is. -/
theorem parenStep_add_count_le (d : Int) (t : String) (ts : List String) :
    parenStep d t + (ts.count "(" : Int) ≤ d + ((t :: ts).count "(" : Int) := by
  unfold parenStep
  split_ifs with h1 h2 <;> simp [h1]
  omega

/-- Lexemes that bind, with parentheses that never go below the depth the fold starts from and
too few openings to take it to `2^31`, are folded without failure. -/
theorem foldlM_of_binds {ls : List Lexeme} {ps' : List (String × LexemeKind)} {vs' : List Datum}
    (h : Binds clock ls ps' vs') :
    ∀ (ps : List (String × LexemeKind)) (vs : List Datum) (d : Int32) (o : Bool),
      ParensOk d.toInt (parens ps') → 0 ≤ d.toInt →
      d.toInt + ((parens ps').count "(" : Int) < 2 ^ 31 →
      ∃ d' o', d'.toInt = parenDepth d.toInt (parens ps') ∧
        ls.foldlM (bindLexeme clock fragment) (ps, vs, d, o) =
          .ok (ps'.reverse ++ ps, vs'.reverse ++ vs, d', o') := by
  induction h with
  | nil => exact fun _ _ d _ _ _ _ => ⟨d, _, rfl, rfl⟩
  | @literal l ls ps' vs' hk _ ih =>
    intro ps vs d o hparens hd hcount
    have hstep : bindLexeme clock fragment (ps, vs, d, o) l =
        .ok (("?", .literal) :: ps, literalValue clock l :: vs, d, o) := by
      simp [bindLexeme, hk]
    obtain ⟨d', o', hd', h⟩ := ih (("?", .literal) :: ps) (literalValue clock l :: vs) d o
      (by simpa [parens] using hparens) hd (by simpa [parens] using hcount)
    refine ⟨d', o', by simpa [parens] using hd', ?_⟩
    rw [List.foldlM_cons, hstep, ok_bind]
    simpa [parens] using h
  | @name l t ls ps' vs' hk ht _ ih =>
    intro ps vs d o hparens hd hcount
    have hstep : bindLexeme clock fragment (ps, vs, d, o) l = .ok ((t, .identifier) :: ps, vs, d, o) := by
      simp [bindLexeme, hk, ht, Except.map]
    obtain ⟨d', o', hd', h⟩ := ih ((t, .identifier) :: ps) vs d o
      (by simpa [parens] using hparens) hd (by simpa [parens] using hcount)
    refine ⟨d', o', by simpa [parens] using hd', ?_⟩
    rw [List.foldlM_cons, hstep, ok_bind]
    simpa [parens] using h
  | @other l ls ps' vs' hk1 hk2 _ ih =>
    intro ps vs d o hparens hd hcount
    cases hk : l.kind with
    | literal => exact absurd hk hk1
    | identifier => exact absurd hk hk2
    | punctuation =>
      have hpiece : parens (pieceOf l :: ps') = l.text :: parens ps' := by
        simp [parens, pieceOf, hk]
      rw [hpiece] at hparens hcount
      cases hparens with
      | cons hlo hrest =>
        -- the openings still to come bound the depth after this step below `2^31`
        have hbound := parenStep_add_count_le d.toInt l.text (parens ps')
        have hcount0 : (0 : Int) ≤ ((parens ps').count "(" : Int) := Int.natCast_nonneg _
        have hd' : (parenStep32 d l.text).toInt = parenStep d.toInt l.text := by
          rw [toInt_parenStep32 hd, if_pos (by omega)]
        have hstep : bindLexeme clock fragment (ps, vs, d, o) l =
            .ok ((l.text, .punctuation) :: ps, vs, parenStep32 d l.text, o) := by
          simp [bindLexeme, hk, (parenStep32_nonneg_iff hd).2 ⟨hlo, by omega⟩]
        obtain ⟨d', o', hdepth, h⟩ := ih ((l.text, .punctuation) :: ps) vs _ o
          (by rw [hd']; exact hrest) (by rw [hd']; exact hlo) (by rw [hd']; omega)
        refine ⟨d', o', by rw [hpiece, hdepth, hd']; rfl, ?_⟩
        rw [List.foldlM_cons, hstep, ok_bind]
        simpa [pieceOf, hk] using h
    | keyword =>
      have hstep : bindLexeme clock fragment (ps, vs, d, o) l =
          .ok ((l.text, .keyword) :: ps, vs, d, o || (d == 0 && l.text == "OR")) := by
        simp [bindLexeme, hk]
      obtain ⟨d', o', hd', h⟩ := ih ((l.text, .keyword) :: ps) vs d
        (o || (d == 0 && l.text == "OR")) (by simpa [parens, pieceOf, hk] using hparens) hd
        (by simpa [parens, pieceOf, hk] using hcount)
      refine ⟨d', o', by simpa [parens, pieceOf, hk] using hd', ?_⟩
      rw [List.foldlM_cons, hstep, ok_bind]
      simpa [parens, pieceOf, hk] using h
    | operator =>
      have hstep : bindLexeme clock fragment (ps, vs, d, o) l =
          .ok ((l.text, .operator) :: ps, vs, d, o) := by
        simp [bindLexeme, hk]
      obtain ⟨d', o', hd', h⟩ := ih ((l.text, .operator) :: ps) vs d o
        (by simpa [parens, pieceOf, hk] using hparens) hd (by simpa [parens, pieceOf, hk] using hcount)
      refine ⟨d', o', by simpa [parens, pieceOf, hk] using hd', ?_⟩
      rw [List.foldlM_cons, hstep, ok_bind]
      simpa [parens, pieceOf, hk] using h

end BoundClause
end QueryShield
