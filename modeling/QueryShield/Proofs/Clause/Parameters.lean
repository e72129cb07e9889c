import Mathlib
import QueryShield.Proofs.Clause.Composition
/-!
# The parameters of a bound clause

Binding puts a placeholder `?` where each literal stood and gives the literal's value as a
parameter, and nothing else that a fragment binds to writes a `?`.  Before its last checks,
`ofFilter` puts one clause together from the fragments that are not blank (`assembled`,
`ofFilter_eq_assembled`).  That clause has one placeholder for each parameter, and its
parameters are the values of the literal lexemes of the fragments, in order
(`assembled_params_literals`).  So of the checks on the joined clause only the parentheses
and a placeholder before a quoted name can fail; the count of placeholders never does.
-/

namespace QueryShield
namespace BoundClause

open Text QueryShield.Lex

/-- The literal lexemes among lexemes, in order. -/
def literals (ls : List Lexeme) : List Lexeme := ls.filter fun l => l.kind == .literal

@[simp] theorem literals_nil : literals [] = [] := rfl

theorem literals_cons (l : Lexeme) (ls : List Lexeme) :
    literals (l :: ls) = if l.kind = .literal then l :: literals ls else literals ls := by
  by_cases hk : l.kind = .literal <;> simp [literals, hk]

theorem literals_append (ls ls' : List Lexeme) :
    literals (ls ++ ls') = literals ls ++ literals ls' :=
  List.filter_append ls ls'

/-! ## One fragment -/

/-- The parameters of bound lexemes are the values of their literals, in order. -/
theorem Binds.params_eq {clock : Stamp} {ls : List Lexeme} {ps : List (String × LexemeKind)}
    {vs : List Datum} (h : Binds clock ls ps vs) : vs = (literals ls).map (literalValue clock) := by
  induction h with
  | nil => rfl
  | literal hk _ ih => simp [literals_cons, hk, ih]
  | name hk _ _ ih => simp [literals_cons, hk, ih]
  | other hk _ _ ih => simp [literals_cons, hk, ih]

/-- A bound fragment's parameters are the values of the literals its fragment lexes to. -/
theorem ofFragment_params {clock : Stamp} {fragment : String} {piece : Piece}
    (h : ofFragment clock fragment = .ok piece) :
    ∃ ls, Lexeme.lex fragment = .ok ls ∧
      piece.clause.params = (literals ls).map (literalValue clock) := by
  rw [ofFragment_eq] at h
  obtain ⟨ls, hlex, h⟩ := exists_of_bind_eq_ok h
  obtain ⟨acc, hfold, rfl⟩ := map_eq_ok h
  obtain ⟨ps, vs, hbinds, -, -, hvs, -⟩ := binds_of_foldlM (by decide) hfold
  refine ⟨ls, hlex, ?_⟩
  show acc.2.1.reverse = _
  rw [hvs, ← hbinds.params_eq]
  simp

/-- Bound fragments' parameters, one after the other, are the values of the literals of all
their fragments' lexemes. -/
theorem params_of_pieces {clock : Stamp} {fs : List String} {pieces : List Piece}
    (h : List.Forall₂ (fun f p => ofFragment clock f = .ok p) fs pieces) :
    ∃ lexemes : List (List Lexeme),
      List.Forall₂ (fun f ls => Lexeme.lex f = .ok ls) fs lexemes ∧
      pieces.flatMap (fun p => p.clause.params) =
        (literals lexemes.flatten).map (literalValue clock) := by
  induction h with
  | nil => exact ⟨[], .nil, rfl⟩
  | cons hp _ ih =>
    obtain ⟨ls, hlex, hparams⟩ := ofFragment_params hp
    obtain ⟨lexemes, hlexes, hrest⟩ := ih
    refine ⟨ls :: lexemes, .cons hlex hlexes, ?_⟩
    rw [List.flatMap_cons, hparams, hrest, List.flatten_cons, literals_append, List.map_append]

/-! ## The assembled clause -/

/-- The clause `ofFilter` puts together before its checks: the fragments that are not blank,
each bound alone and then joined. -/
def assembled (clock : Stamp) (filter : RowFilter) : Except GuardError BoundClause :=
  if filter.parts.isEmpty then .ok empty
  else (filter.parts.mapM (ofFragment clock)).map (joinClause (decide (filter.parts.length > 1)))

/-- Binding a filter is checking the clause it assembles. -/
theorem ofFilter_eq_assembled (clock : Stamp) (filter : RowFilter) :
    ofFilter clock filter = assembled clock filter >>= fun c => c.sanityCheck >>= fun _ => pure c := by
  by_cases hne : filter.parts = []
  · rw [ofFilter_of_parts_nil hne, assembled, if_pos (by simp [hne])]
    rfl
  · rw [ofFilter_eq_join hne, assembled, if_neg (by simpa using hne)]
    cases filter.parts.mapM (ofFragment clock) with
    | error e => rfl
    | ok pieces => rfl

/-- The clause a filter assembles is the join of its fragments, each bound alone; with no
fragment, it is the join of none, the empty clause. -/
theorem assembled_eq_ok {clock : Stamp} {filter : RowFilter} {c : BoundClause}
    (h : assembled clock filter = .ok c) :
    ∃ pieces, List.Forall₂ (fun f p => ofFragment clock f = .ok p) filter.parts pieces ∧
      c = joinClause (decide (filter.parts.length > 1)) pieces := by
  unfold assembled at h
  split at h
  · rename_i hnil
    cases h
    exact ⟨[], by rw [List.isEmpty_iff.1 hnil]; exact .nil, rfl⟩
  · obtain ⟨pieces, hm, rfl⟩ := map_eq_ok h
    exact ⟨pieces, mapM_eq_ok_iff.1 hm, rfl⟩

/-- The assembled clause has one placeholder for each parameter. -/
theorem assembled_placeholderCount {clock : Stamp} {filter : RowFilter} {c : BoundClause}
    (h : assembled clock filter = .ok c) : c.placeholderCount = c.params.length := by
  obtain ⟨pieces, hps, rfl⟩ := assembled_eq_ok h
  refine joinClause_placeholderCount _ fun p hp => ?_
  -- each bound fragment has its own placeholders and parameters, and is clause text
  obtain ⟨f, hf, hfp⟩ := (mapM_eq_ok (mapM_eq_ok_iff.2 hps)).2 p hp
  obtain ⟨ls, -, -, -, hcount, -⟩ := ofFragment_facts hfp
  exact ⟨(ofFragment_nonblank (parts_nonblank hf) hfp).1, hcount⟩

/-- The assembled clause's parameters are the values of the literals of its fragments, in
order. -/
theorem assembled_params {clock : Stamp} {filter : RowFilter} {c : BoundClause}
    (h : assembled clock filter = .ok c) :
    ∃ lexemes : List (List Lexeme),
      List.Forall₂ (fun f ls => Lexeme.lex f = .ok ls) filter.parts lexemes ∧
      c.params = (literals lexemes.flatten).map (literalValue clock) := by
  obtain ⟨pieces, hps, rfl⟩ := assembled_eq_ok h
  exact params_of_pieces hps

/-- With one placeholder for each parameter, the checks on a clause come down to its
parentheses and its placeholders before quoted names. -/
theorem sanityCheck_ok_iff_of_count {c : BoundClause}
    (h : c.placeholderCount = c.params.length) :
    c.sanityCheck = .ok () ↔
      balance c.text.toList = 0 ∧ placeholderBeforeQuotedName c.text.toList = false := by
  rw [sanityCheck_ok_iff]
  simp [h]

/-- Every literal becomes exactly one parameter, in order: the clause a filter assembles has one
placeholder for each parameter, its parameters are the values of the literals of the lexemes
of the fragments that are not blank, one after the other, and of the checks on it only the
parentheses and a placeholder before a quoted name can fail.  It is the clause that binding the
filter checks and returns. -/
theorem assembled_params_literals (clock : Stamp) (filter : RowFilter) :
    (ofFilter clock filter =
      assembled clock filter >>= fun c => c.sanityCheck >>= fun _ => pure c) ∧
    ∀ c, assembled clock filter = .ok c →
      c.placeholderCount = c.params.length ∧
      (∃ lexemes : List (List Lexeme),
        List.Forall₂ (fun f ls => Lexeme.lex f = .ok ls) filter.parts lexemes ∧
        c.params = (literals lexemes.flatten).map (literalValue clock)) ∧
      (c.sanityCheck = .ok () ↔
        balance c.text.toList = 0 ∧ placeholderBeforeQuotedName c.text.toList = false) := by
  refine ⟨ofFilter_eq_assembled clock filter, fun c hc => ?_⟩
  have hcount := assembled_placeholderCount hc
  exact ⟨hcount, assembled_params hc, sanityCheck_ok_iff_of_count hcount⟩

/-- Two fragments, the first with an `OR` outside parentheses and a date sentinel: three
literals, three parameters in order, the sentinel as the clock's date. -/
theorem assembled_params_of_date_and_or :
    assembled ⟨2024, 1, 1, 0, 0, 0, 0⟩ (.fragments ["a = 'current_date' OR b = 2", "c < 3"]) =
        .ok ⟨"(a=? OR b=?) AND c<?", [.text "2024-01-01", .int 2, .int 3]⟩ ∧
      (BoundClause.mk "(a=? OR b=?) AND c<?" [.text "2024-01-01", .int 2, .int 3]).placeholderCount =
        [Datum.text "2024-01-01", .int 2, .int 3].length ∧
      (∃ lexemes : List (List Lexeme),
        List.Forall₂ (fun f ls => Lexeme.lex f = .ok ls)
          (RowFilter.fragments ["a = 'current_date' OR b = 2", "c < 3"]).parts lexemes ∧
        [Datum.text "2024-01-01", .int 2, .int 3] =
          (literals lexemes.flatten).map (literalValue ⟨2024, 1, 1, 0, 0, 0, 0⟩)) ∧
      ((BoundClause.mk "(a=? OR b=?) AND c<?" [.text "2024-01-01", .int 2, .int 3]).sanityCheck =
          .ok () ↔
        balance "(a=? OR b=?) AND c<?".toList = 0 ∧
          placeholderBeforeQuotedName "(a=? OR b=?) AND c<?".toList = false) := by
  have h : assembled ⟨2024, 1, 1, 0, 0, 0, 0⟩
      (.fragments ["a = 'current_date' OR b = 2", "c < 3"]) =
        .ok ⟨"(a=? OR b=?) AND c<?", [.text "2024-01-01", .int 2, .int 3]⟩ := by
    decide +kernel
  exact ⟨h, (assembled_params_literals _ _).2 _ h⟩

end BoundClause
end QueryShield
