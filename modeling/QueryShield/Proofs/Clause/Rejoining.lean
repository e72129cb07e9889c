import Mathlib
import QueryShield.Clause.Bound
import QueryShield.Proofs.Clause.Relexing

/-!
# Joined pieces, read back

`joinPieces` writes the pieces of a fragment one after the other, with a single space between
two of them except after `(` or a comparison and before `)`, `,` or a comparison.  Here that
spacing is made a function of the list (`joinAfter`), so that joined text can be cut at any
piece (`joinPieces_eq`, `joinAfter_append`).

Pieces that the lexer can read on their own (`Lexable`) are read back from their joined text,
piece for piece, with one exception: comparisons written next to each other are regrouped,
longest first, into other comparisons with the same characters (`go_joinAfter`).  The relation
`Regrouped` says exactly that, and joining does not see it (`Regrouped.joinAfter_eq`): the
comparisons of a run are glued together either way.

Last, writing parameters into placeheld text (`renderInline`) is joining the pieces with the
parameters' literals in place of the placeholders (`render_joinAfter`).
-/

namespace QueryShield
namespace BoundClause

open Text QueryShield.Lex

/-! ## Spacing -/

/-- Whether joining puts a space before a piece: `glue` says that the piece before asks for
none, and `)`, `,` and comparisons take none. -/
def spaceBefore (glue : Bool) (p : String × LexemeKind) : Bool :=
  !(glue || (p.1 == ")" || p.1 == ",") || p.2 == .operator)

/-- Whether a piece asks for no space after it: `(` and comparisons. -/
def gluesAfter (p : String × LexemeKind) : Bool := p.1 == "(" || p.2 == .operator

/-- Pieces joined after text that ends with a piece asking (`glue`) or not for no space. -/
def joinAfter (glue : Bool) : List (String × LexemeKind) → List Char
  | [] => []
  | p :: ps => (if spaceBefore glue p then [' '] else []) ++ p.1.toList ++ joinAfter (gluesAfter p) ps

@[simp] theorem joinAfter_nil (glue : Bool) : joinAfter glue [] = [] := rfl

theorem joinAfter_cons (glue : Bool) (p : String × LexemeKind) (ps : List (String × LexemeKind)) :
    joinAfter glue (p :: ps) =
      (if spaceBefore glue p then [' '] else []) ++ p.1.toList ++ joinAfter (gluesAfter p) ps :=
  rfl

/-- The fold of `joinPieces`, stepped with any function that joins the way it does. -/
theorem foldl_joinAfter {F : String × Bool → String × LexemeKind → String × Bool}
    (hF : ∀ out glue p, out ≠ "" →
      F (out, glue) p = (out ++ (if spaceBefore glue p then " " else "") ++ p.1, gluesAfter p))
    {ps : List (String × LexemeKind)} (hps : ∀ p ∈ ps, p.1 ≠ "") :
    ∀ out glue, out ≠ "" → (ps.foldl F (out, glue)).1 = out ++ String.ofList (joinAfter glue ps) := by
  induction ps with
  | nil => simp
  | cons p ps ih =>
    intro out glue hout
    have hp : p.1 ≠ "" := hps p (by simp)
    rw [List.foldl_cons, hF out glue p hout, ih (fun q hq => hps q (by simp [hq])) _ _ (by simp [hp])]
    rw [joinAfter_cons, ← String.toList_inj]
    split <;> simp

/-- Joined pieces, as a function of the list. -/
theorem joinPieces_eq {ps : List (String × LexemeKind)} (hps : ∀ p ∈ ps, p.1 ≠ "") :
    joinPieces ps = String.ofList (joinAfter true ps) := by
  cases ps with
  | nil => rfl
  | cons p ps =>
    have hp : p.1 ≠ "" := hps p (by simp)
    unfold joinPieces
    rw [List.foldl_cons]
    obtain ⟨t, k⟩ := p
    have hfirst : ((if false || "".isEmpty || (t == ")" || t == ",") || k == .operator then ""
        else "" ++ " ") ++ t, t == "(" || k == .operator) = (t, gluesAfter (t, k)) := by
      simp [gluesAfter]
    dsimp only
    rw [hfirst, foldl_joinAfter ?_ (fun q hq => hps q (by simp [hq])) _ _ hp]
    · simp [joinAfter_cons, spaceBefore]
    · rintro out glue ⟨t', k'⟩ hout
      have hne : out.isEmpty = false := by simpa using hout
      have hcond : (glue || out.isEmpty || (t' == ")" || t' == ",") || k' == .operator) =
          !spaceBefore glue (t', k') := by
        simp [spaceBefore, hne]
      dsimp only
      rw [hcond]
      cases spaceBefore glue (t', k') <;> simp [gluesAfter]

theorem joinAfter_append (glue : Bool) (ps qs : List (String × LexemeKind)) :
    joinAfter glue (ps ++ qs) =
      joinAfter glue ps ++ joinAfter ((ps.getLast?.map gluesAfter).getD glue) qs := by
  induction ps generalizing glue with
  | nil => simp
  | cons p ps ih =>
    rw [List.cons_append, joinAfter_cons, joinAfter_cons, ih, List.getLast?_cons]
    cases ps.getLast? <;> simp

/-! ## Runs of comparisons -/

/-- Comparisons, as pieces. -/
def operators (ops : List String) : List (String × LexemeKind) := ops.map (·, .operator)

/-- A run of comparisons is joined without spaces, and asks for none after it. -/
theorem joinAfter_operators (glue : Bool) {ops : List String} (hops : ops ≠ [])
    (qs : List (String × LexemeKind)) :
    joinAfter glue (operators ops ++ qs) = (ops.map String.toList).flatten ++ joinAfter true qs := by
  induction ops generalizing glue with
  | nil => exact absurd rfl hops
  | cons o ops ih =>
    cases ops with
    | nil => simp [operators, joinAfter_cons, spaceBefore, gluesAfter]
    | cons o' ops =>
      have hrest := ih true (by simp)
      have hs : spaceBefore glue (o, .operator) = false := by simp [spaceBefore]
      have hg : gluesAfter (o, .operator) = true := by simp [gluesAfter]
      simp only [operators, List.map_cons, List.cons_append] at hrest ⊢
      rw [joinAfter_cons, hs, hg, hrest]
      simp

/-- Two lists of pieces that differ only in how runs of comparisons are cut into
comparisons. -/
inductive Regrouped : List (String × LexemeKind) → List (String × LexemeKind) → Prop
  | nil : Regrouped [] []
  | cons {p : String × LexemeKind} {ps qs : List (String × LexemeKind)} :
      p.2 ≠ .operator → Regrouped ps qs → Regrouped (p :: ps) (p :: qs)
  | run {ops ops' : List String} {ps qs : List (String × LexemeKind)} :
      ops ≠ [] → ops' ≠ [] → (ops.map String.toList).flatten = (ops'.map String.toList).flatten →
      Regrouped ps qs → Regrouped (operators ops ++ ps) (operators ops' ++ qs)

/-- Joining does not see how a run of comparisons is cut. -/
theorem Regrouped.joinAfter_eq {ps qs : List (String × LexemeKind)} (h : Regrouped ps qs)
    (glue : Bool) : joinAfter glue ps = joinAfter glue qs := by
  induction h generalizing glue with
  | nil => rfl
  | cons _ _ ih => rw [joinAfter_cons, joinAfter_cons, ih]
  | run hops hops' hflat _ ih =>
    rw [joinAfter_operators _ hops, joinAfter_operators _ hops', hflat, ih]

/-! ## Pieces the lexer reads on their own -/

/-- A piece that the lexer reads back as itself, given a separator after it: a quoted text or a
number, a name whose parts passed the screen and that is no clause word, a keyword, a
parenthesis or a comma, or a comparison. -/
inductive Lexable : String × LexemeKind → Prop
  | quoted (s : String) : Lexable (Datum.quoteText s, .literal)
  | number {t : String} : IsNumberText t.toList → Lexable (t, .literal)
  | name {t : String} : IsScreenedName t.toList → Lexicon.isClauseWord t = false →
      Lexable (t, .identifier)
  | keyword {t : String} : IsKeywordText t.toList → Lexable (t, .keyword)
  | punctuation {t : String} : t ∈ ["(", ")", ","] → Lexable (t, .punctuation)
  | comparison {t : String} : t ∈ comparisons → Lexable (t, .operator)

theorem Lexable.toList_ne_nil {p : String × LexemeKind} (hp : Lexable p) : p.1.toList ≠ [] := by
  cases hp with
  | quoted s => simp [quoteText_toList]
  | number hw =>
    obtain ⟨c, cs, hcs, -⟩ := hw.head
    simp [hcs]
  | name hw _ =>
    obtain ⟨c, cs, hcs, -⟩ := hw.dotted.head
    simp [hcs]
  | keyword hw => exact hw.1.ne_nil
  | punctuation ht =>
    simp only [List.mem_cons, List.not_mem_nil, or_false] at ht
    rcases ht with rfl | rfl | rfl <;> simp
  | comparison hop => exact (comparisons_head _ hop).1

/-- A piece that is no comparison starts with a character no comparison starts with. -/
theorem Lexable.head {p : String × LexemeKind} (hp : Lexable p) (hop : p.2 ≠ .operator) :
    ∃ c cs, p.1.toList = c :: cs ∧ c ∉ comparisonChars := by
  cases hp with
  | quoted s => exact ⟨'\'', _, by rw [quoteText_toList]; rfl, by simp [comparisonChars]⟩
  | number hw =>
    obtain ⟨c, cs, hcs, -, hplain⟩ := hw.head
    exact ⟨c, cs, hcs, hplain.2.2.1⟩
  | name hw _ =>
    obtain ⟨c, cs, hcs, hc⟩ := hw.dotted.head
    exact ⟨c, cs, hcs, (isNameStart_plain hc).2.2.1⟩
  | keyword hw =>
    obtain ⟨c, cs, hcs⟩ := List.exists_cons_of_ne_nil hw.1.ne_nil
    exact ⟨c, cs, hcs, (isNameStart_plain (hw.1.isNameStart c (by simp [hcs]))).2.2.1⟩
  | punctuation ht =>
    simp only [List.mem_cons, List.not_mem_nil, or_false] at ht
    rcases ht with rfl | rfl | rfl
    · exact ⟨'(', [], by simp, by simp [comparisonChars]⟩
    · exact ⟨')', [], by simp, by simp [comparisonChars]⟩
    · exact ⟨',', [], by simp, by simp [comparisonChars]⟩
  | comparison _ => exact absurd rfl hop

/-- A piece that is no comparison is read back as itself: names and keywords after a
non-word character, and all but `(` before a separator. -/
theorem Lexable.lexemeAt {p : String × LexemeKind} (hp : Lexable p) (hop : p.2 ≠ .operator)
    {prev : Option Char} {rest : List Char}
    (hprev : p.2 = .identifier ∨ p.2 = .keyword → ∀ d ∈ prev, isWordChar d = false)
    (hrest : p.1 ≠ "(" → Separated rest) :
    Lex.lexemeAt prev (p.1.toList ++ rest) = some (⟨p.1, p.2⟩, p.1.toList.length) := by
  cases hp with
  | quoted s =>
    have hsep := hrest fun h => by simpa [quoteText_toList] using congrArg String.toList h
    rw [String.length_toList]
    refine lexemeAt_quoteText s fun hq => ?_
    have := hsep '\'' hq
    simp [separators] at this
  | @number t hw =>
    have hparen : t ≠ "(" := by
      rintro rfl
      obtain ⟨c, cs, hcs, -, hplain⟩ := hw.head
      have hc : c = '(' ∧ cs = [] := by simpa using hcs.symm
      exact hplain.2.2.2.1 hc.1
    simpa using lexemeAt_number hw (hrest hparen)
  | @name t hw hclause =>
    have hparen : t ≠ "(" := by
      rintro rfl
      obtain ⟨c, cs, hcs, hc⟩ := hw.dotted.head
      have hc' : c = '(' ∧ cs = [] := by simpa using hcs.symm
      rw [hc'.1] at hc
      exact absurd hc (by decide)
    simpa using lexemeAt_identifier prev hw (by simpa using hclause) (hrest hparen)
  | @keyword t hw =>
    have hparen : t ≠ "(" := by
      rintro rfl
      exact absurd (hw.1.isNameStart '(' (by simp)) (by decide)
    simpa using lexemeAt_keyword (hprev (.inr rfl)) hw (hrest hparen)
  | punctuation ht =>
    simp only [List.mem_cons, List.not_mem_nil, or_false] at ht
    rcases ht with rfl | rfl | rfl
    · simpa using lexemeAt_punctuation prev (c := '(') (t := rest) (by simp)
    · simpa using lexemeAt_punctuation prev (c := ')') (t := rest) (by simp)
    · simpa using lexemeAt_punctuation prev (c := ',') (t := rest) (by simp)
  | comparison _ => exact absurd rfl hop

/-- A piece that takes no space before it, after no glue, starts with a separator. -/
theorem Lexable.head_separator {p : String × LexemeKind} (hp : Lexable p)
    (hs : spaceBefore false p = false) : ∀ c ∈ p.1.toList.head?, c ∈ separators := by
  have hcases : p.1 = ")" ∨ p.1 = "," ∨ p.2 = .operator := by
    simp only [spaceBefore, Bool.false_or, Bool.not_eq_false', Bool.or_eq_true, beq_iff_eq] at hs
    tauto
  rcases hcases with h | h | h
  · simp [h, separators]
  · simp [h, separators]
  · cases hp with
    | comparison hop =>
      intro c hc
      obtain ⟨a, as, ha⟩ := List.exists_cons_of_ne_nil (comparisons_head _ hop).1
      have hmem := (comparisons_head _ hop).2 c hc
      simp only [comparisonChars, List.mem_cons, List.not_mem_nil, or_false] at hmem
      rcases hmem with rfl | rfl | rfl | rfl <;> simp [separators]
    | _ => simp at h

/-- Pieces joined after no glue start with a space or a separator. -/
theorem separated_joinAfter {ps : List (String × LexemeKind)} (hps : ∀ p ∈ ps, Lexable p) :
    Separated (joinAfter false ps) := by
  cases ps with
  | nil => simp [Separated]
  | cons q qs =>
    intro c hc
    rw [joinAfter_cons] at hc
    cases hs : spaceBefore false q
    · obtain ⟨d, ds, hq⟩ := List.exists_cons_of_ne_nil (hps q (by simp)).toList_ne_nil
      simp only [hs, Bool.false_eq_true, if_false, List.nil_append, hq, List.cons_append,
        List.head?_cons, Option.mem_def, Option.some.injEq] at hc
      subst hc
      exact (hps q (by simp)).head_separator hs d (by simp [hq])
    · simp only [hs, if_true, List.cons_append, List.head?_cons, Option.mem_def,
        Option.some.injEq] at hc
      simp [← hc, separators]

/-- A name or a keyword takes a space before it unless the piece before asks for none. -/
theorem Lexable.glue_of_word {p : String × LexemeKind} (hp : Lexable p)
    (hword : p.2 = .identifier ∨ p.2 = .keyword) {glue : Bool} (hs : spaceBefore glue p = false) :
    glue = true := by
  have hstart : ∃ c cs, p.1.toList = c :: cs ∧ isNameStart c = true := by
    cases hp with
    | name hw _ => exact hw.dotted.head
    | keyword hw =>
      obtain ⟨c, cs, hcs⟩ := List.exists_cons_of_ne_nil hw.1.ne_nil
      exact ⟨c, cs, hcs, hw.1.isNameStart c (by simp [hcs])⟩
    | _ => simp at hword
  obtain ⟨c, cs, hcs, hc⟩ := hstart
  have hclose : p.1 ≠ ")" ∧ p.1 ≠ "," := by
    constructor
    · intro h
      rw [h] at hcs
      have hc' : c = ')' ∧ cs = [] := by simpa using hcs.symm
      rw [hc'.1] at hc
      exact absurd hc (by decide)
    · intro h
      rw [h] at hcs
      have hc' : c = ',' ∧ cs = [] := by simpa using hcs.symm
      rw [hc'.1] at hc
      exact absurd hc (by decide)
  have hop : p.2 ≠ .operator := by rcases hword with h | h <;> simp [h]
  simpa [spaceBefore, hclose.1, hclose.2, hop] using hs

/-- A lexeme as a piece. -/
def pieceOf (l : Lexeme) : String × LexemeKind := (l.text, l.kind)

/-- Comparisons, side by side, make a run of comparisons. -/
theorem comparisonRun_flatten {ops : List String} (hops : ∀ o ∈ ops, o ∈ comparisons) :
    ComparisonRun (ops.map String.toList).flatten := by
  induction ops with
  | nil => exact .nil
  | cons o ops ih =>
    simpa using ComparisonRun.cons (hops o (by simp)) (ih fun o' ho' => hops o' (by simp [ho']))

/-- A list of pieces cut after its first run of comparisons. -/
theorem eq_operators_append (ps : List (String × LexemeKind)) :
    ps = operators ((ps.takeWhile (·.2 == .operator)).map Prod.fst) ++
      ps.dropWhile (·.2 == .operator) := by
  conv_lhs => rw [← List.takeWhile_append_dropWhile (p := (·.2 == .operator)) (l := ps)]
  congr 1
  rw [operators, List.map_map]
  conv_lhs => rw [← List.map_id (ps.takeWhile _)]
  refine List.map_congr_left fun q hq => ?_
  have hk := List.mem_takeWhile_imp hq
  simp only [beq_iff_eq] at hk
  simp only [id, Function.comp]
  exact Prod.ext rfl hk

/-- The text after a run of comparisons starts with no comparison character. -/
theorem joinAfter_head_not_comparison {ps : List (String × LexemeKind)}
    (hps : ∀ p ∈ ps, Lexable p) (hop : ∀ p ∈ ps.head?, p.2 ≠ .operator) :
    ∀ c ∈ (joinAfter true ps).head?, c ∉ comparisonChars := by
  cases ps with
  | nil => simp
  | cons q qs =>
    obtain ⟨d, ds, hq, hd⟩ := (hps q (by simp)).head (hop q rfl)
    intro c hc
    simp only [joinAfter_cons, spaceBefore, Bool.true_or, Bool.not_true, Bool.false_eq_true,
      if_false, List.nil_append, hq, List.cons_append, List.head?_cons, Option.mem_def,
      Option.some.injEq] at hc
    exact hc ▸ hd

/-- The lexer reads joined pieces back piece for piece, runs of comparisons regrouped. -/
theorem go_joinAfter (n : Nat) : ∀ (ps : List (String × LexemeKind)), ps.length = n →
    (∀ p ∈ ps, Lexable p) → ∀ (glue : Bool) (prev : Option Char) (gap : List Char),
    (∀ c ∈ gap, isBlank c = true) → (glue = true → ∀ d ∈ prev, isWordChar d = false) →
    ∃ ls, go prev gap (joinAfter glue ps) = .ok ls ∧ Regrouped ps (ls.map pieceOf) := by
  -- induction on the number of pieces: a run of comparisons is read at once
  induction n using Nat.strong_induction_on with
  | _ n ih =>
  intro ps hn hps glue prev gap hgap hprev
  cases ps with
  | nil => exact ⟨[], go_nil hgap, .nil⟩
  | cons p qs =>
    by_cases hop : p.2 = .operator
    · -- a run of comparisons, then the pieces after it
      set ops := ((p :: qs).takeWhile (·.2 == .operator)).map Prod.fst with hops_def
      set rest := (p :: qs).dropWhile (·.2 == .operator) with hrest_def
      have hsplit := eq_operators_append (p :: qs)
      rw [← hops_def, ← hrest_def] at hsplit
      have hopsne : ops ≠ [] := by simp [hops_def, hop]
      have hcmp : ∀ o ∈ ops, o ∈ comparisons := by
        intro o ho
        have hmem : (o, LexemeKind.operator) ∈ p :: qs := by
          rw [hsplit]
          exact List.mem_append_left _ (List.mem_map_of_mem ho)
        cases hps _ hmem with
        | comparison h => exact h
      have hrestL : ∀ q ∈ rest, Lexable q := fun q hq =>
        hps q ((List.dropWhile_suffix _).subset hq)
      have hrestOp : ∀ q ∈ rest.head?, q.2 ≠ .operator := by
        intro q hq h
        have hne : rest ≠ [] := by
          rintro hnil
          simp [hnil] at hq
        have hhead := List.head_dropWhile_not (fun x : String × LexemeKind => x.2 == .operator) hne
        rw [List.head?_eq_some_head hne, Option.mem_def, Option.some.injEq] at hq
        rw [hq, h] at hhead
        exact absurd hhead (by decide)
      have hlen : rest.length < n := by
        have := congrArg List.length hsplit
        simp only [List.length_append, operators, List.length_map] at this
        have : 0 < ops.length := List.length_pos_of_ne_nil hopsne
        omega
      set r := (ops.map String.toList).flatten with hr_def
      have hrun : ComparisonRun r := comparisonRun_flatten hcmp
      have hrne : r ≠ [] := by
        obtain ⟨o, os, hos⟩ := List.exists_cons_of_ne_nil hopsne
        have := (comparisons_head o (hcmp o (by simp [hos]))).1
        simp [hr_def, hos, this]
      have hlastWord : ∀ d ∈ r.getLast?, isWordChar d = false := by
        intro d hd
        have := hrun.chars d (List.mem_of_getLast? hd)
        simp only [comparisonChars, List.mem_cons, List.not_mem_nil, or_false] at this
        rcases this with rfl | rfl | rfl | rfl <;> decide
      obtain ⟨ls, hgo, hreg⟩ := ih _ hlen rest rfl hrestL true r.getLast? [] (by simp)
        (fun _ => hlastWord)
      obtain ⟨ops', hops'ne, -, hflat, hgo'⟩ := go_comparisons
        (joinAfter_head_not_comparison hrestL hrestOp) hrun hrne hgo prev gap hgap
      refine ⟨ops'.map (fun o => ⟨o, .operator⟩) ++ ls, ?_, ?_⟩
      · rw [hsplit, joinAfter_operators _ hopsne]
        exact hgo'
      · rw [hsplit, List.map_append, List.map_map]
        exact .run hopsne hops'ne hflat.symm hreg
    · -- one piece, after a space or glued
      have hp := hps p (by simp)
      have hlen : qs.length < n := by simp at hn; omega
      have hglue : gluesAfter p = true → ∀ d ∈ p.1.toList.getLast?, isWordChar d = false := by
        intro hg d hd
        have hparen : p.1 = "(" := by simpa [gluesAfter, hop] using hg
        rw [hparen] at hd
        simp at hd
        subst hd
        decide
      obtain ⟨ls, hgo, hreg⟩ := ih _ hlen qs rfl (fun q hq => hps q (by simp [hq]))
        (gluesAfter p) p.1.toList.getLast? [] (by simp) hglue
      have hsep : p.1 ≠ "(" → Separated (joinAfter (gluesAfter p) qs) := by
        intro hparen
        have : gluesAfter p = false := by simp [gluesAfter, hparen, hop]
        rw [this]
        exact separated_joinAfter fun q hq => hps q (by simp [hq])
      refine ⟨⟨p.1, p.2⟩ :: ls, ?_, .cons hop hreg⟩
      rw [joinAfter_cons]
      cases hs : spaceBefore glue p
      · simp only [Bool.false_eq_true, if_false, List.nil_append]
        refine go_lexeme hgap hp.toList_ne_nil (hp.lexemeAt hop ?_ hsep) hgo
        intro hword
        exact hprev (hp.glue_of_word hword hs)
      · simp only [if_true, List.cons_append, go_space]
        have hgap' : ∀ c ∈ ' ' :: gap, isBlank c = true := by
          simp only [List.mem_cons, forall_eq_or_imp]
          exact ⟨by decide, hgap⟩
        refine go_lexeme hgap' hp.toList_ne_nil (hp.lexemeAt hop ?_ hsep) hgo
        intro _ d hd
        simp only [Option.mem_def, Option.some.injEq] at hd
        subst hd
        decide

/-! ## Placeholders and parameters -/

/-- Pieces with placeholders, parameters, and the pieces with each placeholder replaced by its
parameter's literal. -/
inductive Filled : List (String × LexemeKind) → List Datum → List (String × LexemeKind) → Prop
  | nil : Filled [] [] []
  | literal {ps : List (String × LexemeKind)} {v : Datum} {vs : List Datum}
      {qs : List (String × LexemeKind)} :
      Filled ps vs qs → Filled (("?", .literal) :: ps) (v :: vs) ((v.literal, .literal) :: qs)
  | other {p : String × LexemeKind} {ps : List (String × LexemeKind)} {vs : List Datum}
      {qs : List (String × LexemeKind)} :
      p.2 ≠ .literal → Filled ps vs qs → Filled (p :: ps) vs (p :: qs)

theorem render_plain {cs : List Char} (hcs : '?' ∉ cs) (rest : List Char) (ps : List Datum) :
    (renderInline.go (cs ++ rest) ps).flatMap String.toList =
      cs ++ (renderInline.go rest ps).flatMap String.toList := by
  induction cs with
  | nil => rfl
  | cons c cs ih =>
    have hc : c ≠ '?' := fun h => hcs (by simp [h])
    have hgo : renderInline.go (c :: (cs ++ rest)) ps =
        String.singleton c :: renderInline.go (cs ++ rest) ps := by
      cases ps <;> simp [renderInline.go, hc]
    rw [List.cons_append, hgo, List.flatMap_cons, ih fun h => hcs (by simp [h])]
    simp

/-- Writing parameters into joined pieces is joining the filled pieces, when only placeholders
hold `?` and no literal is a parenthesis or a comma. -/
theorem render_joinAfter {ps : List (String × LexemeKind)} {vs : List Datum}
    {qs : List (String × LexemeKind)} (h : Filled ps vs qs)
    (hps : ∀ p ∈ ps, p.2 ≠ .literal → '?' ∉ p.1.toList)
    (hvs : ∀ v ∈ vs, v.literal ≠ "(" ∧ v.literal ≠ ")" ∧ v.literal ≠ ",") (glue : Bool) :
    (renderInline.go (joinAfter glue ps) vs).flatMap String.toList = joinAfter glue qs := by
  induction h generalizing glue with
  | nil => simp [renderInline.go]
  | @literal ps v vs qs _ ih =>
    obtain ⟨h1, h2, h3⟩ := hvs v (by simp)
    have h2' : (v.literal == ")") = false := by simpa using h2
    have h3' : (v.literal == ",") = false := by simpa using h3
    have hs : spaceBefore glue ("?", .literal) = spaceBefore glue (v.literal, .literal) := by
      simp [spaceBefore, h2', h3']
    have hg : gluesAfter ("?", .literal) = gluesAfter (v.literal, .literal) := by
      simp [gluesAfter, h1]
    rw [joinAfter_cons, joinAfter_cons, ← hs, ← hg]
    have hsp : '?' ∉ (if spaceBefore glue ("?", LexemeKind.literal) = true then [' '] else []) := by
      split <;> simp
    rw [List.append_assoc, render_plain hsp]
    simp [renderInline.go, ih (fun p hp => hps p (by simp [hp])) (fun v hv => hvs v (by simp [hv]))]
  | @other p ps vs qs hp _ ih =>
    rw [joinAfter_cons, joinAfter_cons]
    have hsp : '?' ∉ (if spaceBefore glue p = true then [' '] else []) ++ p.1.toList := by
      have := hps p (by simp) hp
      split <;> simp [this]
    rw [render_plain hsp, ih (fun q hq => hps q (by simp [hq])) hvs]

/-- The placeholder a literal piece was. -/
def unfill (p : String × LexemeKind) : String × LexemeKind :=
  if p.2 = .literal then ("?", .literal) else p

theorem Filled.unfill_eq {ps : List (String × LexemeKind)} {vs : List Datum}
    {qs : List (String × LexemeKind)} (h : Filled ps vs qs) : qs.map unfill = ps := by
  induction h with
  | nil => rfl
  | literal _ ih => simp [unfill, ih]
  | other hp _ ih => simp [unfill, hp, ih]

/-- The texts of the literal pieces, in order. -/
def literalTexts (ps : List (String × LexemeKind)) : List String :=
  ps.filterMap fun p => if p.2 = .literal then some p.1 else none

theorem Filled.literalTexts_eq {ps : List (String × LexemeKind)} {vs : List Datum}
    {qs : List (String × LexemeKind)} (h : Filled ps vs qs) :
    literalTexts qs = vs.map Datum.literal := by
  induction h with
  | nil => rfl
  | literal _ ih => simp [literalTexts, ← ih]
  | other hp _ ih => simp [literalTexts, hp, ← ih]

theorem Filled.mem {ps : List (String × LexemeKind)} {vs : List Datum}
    {qs : List (String × LexemeKind)} (h : Filled ps vs qs) {q : String × LexemeKind}
    (hq : q ∈ qs) : (q.2 = .literal ∧ ∃ v ∈ vs, q.1 = v.literal) ∨ (q.2 ≠ .literal ∧ q ∈ ps) := by
  induction h with
  | nil => simp at hq
  | @literal ps v vs qs _ ih =>
    rcases List.mem_cons.1 hq with rfl | hq
    · exact .inl ⟨rfl, v, by simp, rfl⟩
    · rcases ih hq with ⟨hk, w, hw, hq⟩ | ⟨hk, hq⟩
      · exact .inl ⟨hk, w, by simp [hw], hq⟩
      · exact .inr ⟨hk, by simp [hq]⟩
  | @other p ps vs qs hp _ ih =>
    rcases List.mem_cons.1 hq with rfl | hq
    · exact .inr ⟨hp, by simp⟩
    · rcases ih hq with ⟨hk, w, hw, hq⟩ | ⟨hk, hq⟩
      · exact .inl ⟨hk, w, hw, hq⟩
      · exact .inr ⟨hk, by simp [hq]⟩

/-! ## What regrouping keeps -/

theorem Regrouped.map_unfill {ps qs : List (String × LexemeKind)} (h : Regrouped ps qs) :
    Regrouped (ps.map unfill) (qs.map unfill) := by
  have hops : ∀ ops : List String, (operators ops).map unfill = operators ops := by
    intro ops
    simp [operators, unfill]
  induction h with
  | nil => exact .nil
  | @cons p ps qs hp _ ih =>
    refine .cons ?_ ih
    unfold unfill
    split <;> simp [hp]
  | run hops' hops'' hflat _ ih =>
    rw [List.map_append, List.map_append, hops, hops]
    exact .run hops' hops'' hflat ih

theorem Regrouped.literalTexts_eq {ps qs : List (String × LexemeKind)} (h : Regrouped ps qs) :
    literalTexts ps = literalTexts qs := by
  have hops : ∀ ops : List String, (operators ops).filterMap
      (fun p => if p.2 = .literal then some p.1 else none) = [] := by
    intro ops
    simp [operators]
  induction h with
  | nil => rfl
  | cons _ _ ih => simp only [literalTexts, List.filterMap_cons] at ih ⊢; rw [ih]
  | run _ _ _ _ ih =>
    simp only [literalTexts, List.filterMap_append, hops] at ih ⊢
    rw [ih]

/-- A piece that is no comparison, of the regrouped list, is a piece of the list. -/
theorem Regrouped.mem {ps qs : List (String × LexemeKind)} (h : Regrouped ps qs)
    {q : String × LexemeKind} (hq : q ∈ qs) (hop : q.2 ≠ .operator) : q ∈ ps := by
  induction h with
  | nil => simp at hq
  | cons _ _ ih =>
    rcases List.mem_cons.1 hq with rfl | hq
    · simp
    · simp [ih hq]
  | run _ _ _ _ ih =>
    rcases List.mem_append.1 hq with hq | hq
    · obtain ⟨o, -, rfl⟩ := List.mem_map.1 hq
      exact absurd rfl hop
    · exact List.mem_append_right _ (ih hq)

end BoundClause
end QueryShield
