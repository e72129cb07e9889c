import Mathlib
import QueryShield.Proofs.Clause.Fragments
/-!
# Fragments bound together

`ofFilter` binds the fragments of a filter that are not blank one by one, puts a bound fragment
in parentheses when there are several and an `OR` stands outside its parentheses, joins the
texts by ` AND ` and runs `sanityCheck` on the joined clause.  Its loop is a map followed by a
join (`forIn_collect`, `joinClause`), and the checks on the joined text are the checks on each
bound fragment (`sanityCheck_joinClause`).  So binding fragments together succeeds exactly when
each binds alone, and gives their join (`ofFilter_fragments_compose`).
-/

namespace QueryShield
namespace BoundClause

open Text QueryShield.Lex

/-! ## Joining the fragments -/

/-- A loop over items that binds each with `g` and yields its text and parameters appended to
those so far collects the texts and parameters of all items, or fails with the first failure. -/
theorem forIn_collect {α : Type}
    {body : α → List String × List Datum → Except GuardError (ForInStep (List String × List Datum))}
    {g : α → Except GuardError Piece} {wrap : Piece → String} {parts : List α}
    (hbody : ∀ a ∈ parts, ∀ s, body a s =
      (g a).map fun p => ForInStep.yield (s.1 ++ [wrap p], s.2 ++ p.clause.params))
    (ts : List String) (vs : List Datum) :
    forIn parts (ts, vs) body = (parts.mapM g).map fun pieces =>
      (ts ++ pieces.map wrap, vs ++ pieces.flatMap fun p => p.clause.params) := by
  induction parts generalizing ts vs with
  | nil =>
    show Except.ok (ts, vs) = Except.ok (ts ++ [], vs ++ [])
    simp
  | cons a parts ih =>
    rw [List.forIn_cons, hbody a (by simp), List.mapM_cons]
    cases hg : g a with
    | error e => rfl
    | ok p =>
      simp only [Except.map, ok_bind]
      rw [ih (fun a' ha' => hbody a' (by simp [ha'])) (ts ++ [wrap p]) (vs ++ p.clause.params)]
      cases parts.mapM g with
      | error e => rfl
      | ok pieces => simp [Except.map]

theorem mapM_eq_ok_iff {α β : Type} {g : α → Except GuardError β} {l : List α} {bs : List β} :
    l.mapM g = .ok bs ↔ List.Forall₂ (fun a b => g a = .ok b) l bs := by
  induction l generalizing bs with
  | nil =>
    constructor
    · intro h
      cases h
      exact .nil
    · intro h
      cases h
      rfl
  | cons a l ih =>
    rw [List.mapM_cons]
    constructor
    · intro h
      obtain ⟨b, hb, h⟩ := exists_of_bind_eq_ok h
      obtain ⟨bs', hbs', h⟩ := exists_of_bind_eq_ok h
      cases h
      exact .cons hb (ih.1 hbs')
    · intro h
      cases h with
      | cons hb hbs => rw [hb, ok_bind, ih.2 hbs, ok_bind]; rfl

/-- The text a bound fragment stands as among the others: in parentheses when there are several
fragments and an `OR` stands outside its parentheses. -/
def wrapText (several : Bool) (p : Piece) : String :=
  if (several && p.topLevelOr) = true then "(" ++ p.clause.text ++ ")" else p.clause.text

/-- Bound fragments as one clause: their texts joined by ` AND `, and their parameters in
order. -/
def joinClause (several : Bool) (pieces : List Piece) : BoundClause :=
  ⟨" AND ".intercalate (pieces.map (wrapText several)), pieces.flatMap fun p => p.clause.params⟩

theorem wrapText_facts (several : Bool) {p : Piece} (hs : Spaced p.clause.text.toList) :
    Spaced (wrapText several p).toList ∧
      balance (wrapText several p).toList = balance p.clause.text.toList ∧
      placeholderBeforeQuotedName (wrapText several p).toList =
        placeholderBeforeQuotedName p.clause.text.toList ∧
      (wrapText several p).toList.count '?' = p.clause.text.toList.count '?' := by
  unfold wrapText
  split
  · have hlist : ("(" ++ p.clause.text ++ ")").toList = '(' :: p.clause.text.toList ++ [')'] := by
      simp
    rw [hlist, balance_paren, hs.placeholderBeforeQuotedName_paren]
    refine ⟨hs.paren, rfl, rfl, by simp⟩
  · exact ⟨hs, rfl, rfl, rfl⟩

theorem joinClause_toList (several : Bool) (pieces : List Piece) :
    (joinClause several pieces).text.toList =
      " AND ".toList.intercalate (pieces.map fun p => (wrapText several p).toList) := by
  simp [joinClause, String.toList_intercalate, Function.comp_def]

/-- Joined, the bound fragments keep one placeholder for each parameter. -/
theorem joinClause_placeholderCount (several : Bool) {pieces : List Piece}
    (h : ∀ p ∈ pieces, Spaced p.clause.text.toList ∧
      p.clause.placeholderCount = p.clause.params.length) :
    (joinClause several pieces).placeholderCount = (joinClause several pieces).params.length := by
  simp only [placeholderCount, joinClause_toList]
  induction pieces with
  | nil => rfl
  | cons p ps ih =>
    have hp := h p (by simp)
    have hcount : (wrapText several p).toList.count '?' = p.clause.params.length := by
      rw [(wrapText_facts several hp.1).2.2.2]
      exact hp.2
    have ih' := ih fun p' hp' => h p' (by simp [hp'])
    cases ps with
    | nil => simpa [joinClause] using hcount
    | cons p' ps =>
      simp only [List.map_cons] at ih'
      rw [List.map_cons, List.map_cons, List.intercalate_cons_cons, List.count_append,
        List.count_append, ih', hcount]
      simp [joinClause]

/-- The checks on the joined clause pass exactly when they pass on each bound fragment: joining
neither hides nor makes an unbalanced parenthesis or a placeholder before a quoted name. -/
theorem sanityCheck_joinClause (several : Bool) {pieces : List Piece}
    (h : ∀ p ∈ pieces, Spaced p.clause.text.toList ∧ 0 ≤ balance p.clause.text.toList ∧
      p.clause.placeholderCount = p.clause.params.length) :
    (joinClause several pieces).sanityCheck = .ok () ↔
      ∀ p ∈ pieces, p.clause.sanityCheck = .ok () := by
  have hwrap := fun p hp => wrapText_facts several (h p hp).1
  have hspaced : ∀ w ∈ pieces.map (fun p => (wrapText several p).toList), Spaced w := by
    simp only [List.mem_map, forall_exists_index, and_imp, forall_apply_eq_imp_iff₂]
    exact fun p hp => (hwrap p hp).1
  have hbal : ∀ w ∈ pieces.map (fun p => (wrapText several p).toList), 0 ≤ balance w := by
    simp only [List.mem_map, forall_exists_index, and_imp, forall_apply_eq_imp_iff₂]
    exact fun p hp => (hwrap p hp).2.1 ▸ (h p hp).2.1
  rw [sanityCheck_ok_iff, joinClause_placeholderCount several fun p hp => ⟨(h p hp).1, (h p hp).2.2⟩,
    joinClause_toList, placeholderBeforeQuotedName_intercalate hspaced, (balance_intercalate hbal).2]
  simp only [List.any_eq_false, List.mem_map, forall_exists_index, and_imp,
    forall_apply_eq_imp_iff₂, Bool.not_eq_true, and_true]
  constructor
  · rintro ⟨hb, hq⟩ p hp
    rw [sanityCheck_ok_iff]
    refine ⟨(hwrap p hp).2.1 ▸ hb p hp, (hwrap p hp).2.2.1 ▸ hq p hp, (h p hp).2.2⟩
  · intro hall
    refine ⟨fun p hp => ?_, fun p hp => ?_⟩
    · rw [(hwrap p hp).2.1]
      exact ((sanityCheck_ok_iff _).1 (hall p hp)).1
    · rw [(hwrap p hp).2.2.1]
      exact ((sanityCheck_ok_iff _).1 (hall p hp)).2.1

theorem parts_nonblank {filter : RowFilter} {f : String} (h : f ∈ filter.parts) :
    isBlankText f = false := by
  cases filter with
  | none => simp [RowFilter.parts] at h
  | clause t =>
    simp only [RowFilter.parts] at h
    split_ifs at h with hb
    · simp at h
    · rw [List.mem_singleton.1 h]
      simpa using hb
  | fragments ps =>
    simp only [RowFilter.parts, List.mem_filter, Bool.not_eq_eq_eq_not, Bool.not_true] at h
    exact h.2

/-- A filter with fragments is bound by binding its fragments one by one, joining them and
checking the joined clause. -/
theorem ofFilter_eq_join {clock : Stamp} {filter : RowFilter} (hne : filter.parts ≠ []) :
    ofFilter clock filter = filter.parts.mapM (ofFragment clock) >>= fun pieces =>
      (joinClause (decide (filter.parts.length > 1)) pieces).sanityCheck >>= fun _ =>
        pure (joinClause (decide (filter.parts.length > 1)) pieces) := by
  unfold ofFilter
  dsimp only
  rw [if_neg (by simpa using hne)]
  rw [@forIn_collect String _ (ofFragment clock) (wrapText (decide (filter.parts.length > 1))) _
    ?hbody [] []]
  case hbody =>
    -- a fragment that is not blank binds to a clause that is not empty, so none is skipped
    intro f hf s
    cases hp : ofFragment clock f with
    | error e => rfl
    | ok p =>
      have hkept := (ofFragment_nonblank (parts_nonblank hf) hp).2
      rw [ok_bind]
      simp [hkept, wrapText, Except.map]
      rfl
  cases filter.parts.mapM (ofFragment clock) with
  | error e => rfl
  | ok pieces => rfl

/-- A filter with fragments binds as its fragments bound one by one and joined, when the joined
clause passes the checks. -/
theorem ofFilter_ok_iff {clock : Stamp} {filter : RowFilter} {c : BoundClause}
    (hne : filter.parts ≠ []) :
    ofFilter clock filter = .ok c ↔
      ∃ pieces, List.Forall₂ (fun f p => ofFragment clock f = .ok p) filter.parts pieces ∧
        (joinClause (decide (filter.parts.length > 1)) pieces).sanityCheck = .ok () ∧
        c = joinClause (decide (filter.parts.length > 1)) pieces := by
  rw [ofFilter_eq_join hne]
  cases hm : filter.parts.mapM (ofFragment clock) with
  | error e =>
    constructor
    · intro h
      cases h
    · rintro ⟨pieces, hps, -⟩
      rw [mapM_eq_ok_iff.2 hps] at hm
      cases hm
  | ok pieces =>
    have hps := mapM_eq_ok_iff.1 hm
    rw [ok_bind]
    constructor
    · intro h
      obtain ⟨u, hu, h⟩ := exists_of_bind_eq_ok h
      exact ⟨pieces, hps, hu, (Except.ok.inj h).symm⟩
    · rintro ⟨pieces', hps', hcheck, rfl⟩
      have hsame := mapM_eq_ok_iff.2 hps'
      rw [hm] at hsame
      cases hsame
      rw [hcheck, ok_bind]
      rfl

theorem joinClause_single (p : Piece) : joinClause false [p] = p.clause := by
  simp [joinClause, wrapText]

/-- A fragment that is not blank binds alone to its bound fragment's clause, when that passes
the checks. -/
theorem ofText_ok_iff {clock : Stamp} {f : String} {c : BoundClause}
    (hf : isBlankText f = false) :
    ofText clock f = .ok c ↔
      ∃ p, ofFragment clock f = .ok p ∧ p.clause.sanityCheck = .ok () ∧ c = p.clause := by
  have hparts : (RowFilter.clause f).parts = [f] := by simp [RowFilter.parts, hf]
  unfold ofText
  rw [ofFilter_ok_iff (by simp [hparts]), hparts]
  simp only [List.forall₂_cons_left_iff, List.forall₂_nil_left_iff, List.length_singleton,
    gt_iff_lt, lt_self_iff_false, decide_false]
  constructor
  · rintro ⟨_, ⟨p, _, hp, rfl, rfl⟩, hcheck, rfl⟩
    exact ⟨p, hp, by rwa [joinClause_single] at hcheck, joinClause_single p⟩
  · rintro ⟨p, hp, hcheck, rfl⟩
    exact ⟨[p], ⟨p, [], hp, rfl, rfl⟩, by rwa [joinClause_single], (joinClause_single p).symm⟩

theorem mapM_ok_of_mem {α β : Type} {g : α → Except GuardError β} {l : List α} {bs : List β}
    (h : l.mapM g = .ok bs) {a : α} (ha : a ∈ l) : ∃ b ∈ bs, g a = .ok b := by
  induction l generalizing bs with
  | nil => cases ha
  | cons a' l ih =>
    rw [List.mapM_cons] at h
    obtain ⟨b, hb, h⟩ := exists_of_bind_eq_ok h
    obtain ⟨bs', hbs', h⟩ := exists_of_bind_eq_ok h
    cases h
    rcases List.mem_cons.1 ha with rfl | ha'
    · exact ⟨b, by simp, hb⟩
    · obtain ⟨b', hb', hg⟩ := ih hbs' ha'
      exact ⟨b', List.mem_cons_of_mem _ hb', hg⟩

theorem mapM_ok_of_forall {α β : Type} {g : α → Except GuardError β} {l : List α}
    (h : ∀ a ∈ l, ∃ b, g a = .ok b) : ∃ bs, l.mapM g = .ok bs := by
  induction l with
  | nil => exact ⟨[], rfl⟩
  | cons a l ih =>
    obtain ⟨b, hb⟩ := h a (by simp)
    obtain ⟨bs, hbs⟩ := ih fun a' ha' => h a' (by simp [ha'])
    exact ⟨b :: bs, by rw [List.mapM_cons, hb, ok_bind, hbs, ok_bind]; rfl⟩

theorem ofFilter_of_parts_nil {clock : Stamp} {filter : RowFilter} (h : filter.parts = []) :
    ofFilter clock filter = .ok empty := by
  unfold ofFilter
  simp [h]
  rfl

/-- A filter with fragments binds exactly when each fragment binds and each bound fragment
passes the checks alone. -/
theorem ofFilter_ok_iff_each {clock : Stamp} {filter : RowFilter} {c : BoundClause}
    (hne : filter.parts ≠ []) :
    ofFilter clock filter = .ok c ↔
      ∃ pieces, List.Forall₂ (fun f p => ofFragment clock f = .ok p) filter.parts pieces ∧
        (∀ p ∈ pieces, p.clause.sanityCheck = .ok ()) ∧
        c = joinClause (decide (filter.parts.length > 1)) pieces := by
  rw [ofFilter_ok_iff hne]
  refine exists_congr fun pieces => and_congr_right fun hps =>
    and_congr_left' (sanityCheck_joinClause _ fun p hp => ?_)
  obtain ⟨f, hf, hp'⟩ := (mapM_eq_ok (mapM_eq_ok_iff.2 hps)).2 p hp
  obtain ⟨ls, -, -, hbal, hcount, -⟩ := ofFragment_facts hp'
  exact ⟨(ofFragment_nonblank (parts_nonblank hf) hp').1, hbal, hcount⟩

/-- Bound fragments that pass the checks, each with the lexemes of its fragment: the clause of
each is what its fragment binds to alone, and its `OR` mark says whether an `OR` stands outside
the lexemes' parentheses. -/
theorem bound_of_pieces {clock : Stamp} {fs : List String} {pieces : List Piece}
    (hfs : ∀ f ∈ fs, isBlankText f = false)
    (hps : List.Forall₂ (fun f p => ofFragment clock f = .ok p) fs pieces)
    (hcheck : ∀ p ∈ pieces, p.clause.sanityCheck = .ok ()) :
    ∃ bound : List (BoundClause × List Lexeme),
      List.Forall₂ (fun f b => ofText clock f = .ok b.1 ∧ Lexeme.lex f = .ok b.2) fs bound ∧
      pieces.map (fun p => (p.clause, p.topLevelOr)) = bound.map fun b => (b.1, orOutside 0 b.2) := by
  induction hps with
  | nil => exact ⟨[], .nil, rfl⟩
  | @cons f p fs pieces hp _ ih =>
    obtain ⟨ls, hlex, hor, -⟩ := ofFragment_facts hp
    obtain ⟨bound, hbound, hmap⟩ := ih (fun f' hf' => hfs f' (by simp [hf']))
      (fun p' hp' => hcheck p' (by simp [hp']))
    have htext : ofText clock f = .ok p.clause :=
      (ofText_ok_iff (hfs f (by simp))).2 ⟨p, hp, hcheck p (by simp), rfl⟩
    exact ⟨(p.clause, ls) :: bound, .cons ⟨htext, hlex⟩ hbound, by simp [hmap, hor]⟩

theorem map_wrapText {several : Bool} {pieces : List Piece} {bound : List (BoundClause × List Lexeme)}
    (h : pieces.map (fun p => (p.clause, p.topLevelOr)) = bound.map fun b => (b.1, orOutside 0 b.2)) :
    pieces.map (wrapText several) = bound.map fun b =>
      if (several && orOutside 0 b.2) = true then "(" ++ b.1.text ++ ")" else b.1.text := by
  have hwrap := congrArg (List.map fun q : BoundClause × Bool =>
    if (several && q.2) = true then "(" ++ q.1.text ++ ")" else q.1.text) h
  simp only [List.map_map, Function.comp_def] at hwrap
  exact hwrap

theorem flatMap_params {pieces : List Piece} {bound : List (BoundClause × List Lexeme)}
    (h : pieces.map (fun p => (p.clause, p.topLevelOr)) = bound.map fun b => (b.1, orOutside 0 b.2)) :
    pieces.flatMap (fun p => p.clause.params) = bound.flatMap fun b => b.1.params := by
  have hclause : pieces.map (·.clause) = bound.map (·.1) := by
    simpa [Function.comp_def] using congrArg (List.map Prod.fst) h
  calc pieces.flatMap (fun p => p.clause.params)
      = (pieces.map (·.clause)).flatMap (·.params) := (List.flatMap_map _ _ _).symm
    _ = (bound.map (·.1)).flatMap (·.params) := by rw [hclause]
    _ = bound.flatMap fun b => b.1.params := List.flatMap_map _ _ _

theorem joinClause_text_ne_empty (several : Bool) {p : Piece} {ps : List Piece}
    (hs : Spaced p.clause.text.toList) : (joinClause several (p :: ps)).text ≠ "" := by
  obtain ⟨c, hc, -⟩ := (wrapText_facts several hs).1.exists_not_blank
  have hmem : c ∈ (joinClause several (p :: ps)).text.toList := by
    rw [joinClause_toList]
    cases ps with
    | nil => simpa using hc
    | cons p' ps =>
      rw [List.map_cons, List.map_cons, List.intercalate_cons_cons]
      simp [hc]
  intro h
  rw [h] at hmem
  simp at hmem

/-- Fragments bound together: the filter binds exactly when every fragment that is not blank
binds alone, and then its clause is their clauses joined by ` AND ` in order, each in
parentheses when there are several and an `OR` stands outside its fragment's parentheses, with
their parameters in the same order; the clause is empty exactly when every fragment is blank. -/
theorem ofFilter_fragments_compose (clock : Stamp) (fs : List String) :
    ((∃ c, ofFilter clock (.fragments fs) = .ok c) ↔
        ∀ f ∈ fs, isBlankText f = false → ∃ c, ofText clock f = .ok c) ∧
      ∀ c, ofFilter clock (.fragments fs) = .ok c →
        ∃ bound : List (BoundClause × List Lexeme),
          List.Forall₂ (fun f b => ofText clock f = .ok b.1 ∧ Lexeme.lex f = .ok b.2)
            (fs.filter fun f => !isBlankText f) bound ∧
          c.text = " AND ".intercalate (bound.map fun b =>
            if (decide (1 < bound.length) && orOutside 0 b.2) = true then "(" ++ b.1.text ++ ")"
            else b.1.text) ∧
          c.params = bound.flatMap (fun b => b.1.params) ∧
          (c.text = "" ↔ ∀ f ∈ fs, isBlankText f = true) := by
  have hparts : (RowFilter.fragments fs).parts = fs.filter fun f => !isBlankText f := rfl
  by_cases hne : (RowFilter.fragments fs).parts = []
  · -- every fragment is blank: the clause is empty
    have hblank : ∀ f ∈ fs, isBlankText f = true := by
      simpa [hparts, List.filter_eq_nil_iff] using hne
    rw [ofFilter_of_parts_nil hne]
    refine ⟨⟨fun _ f hf hb => by simp [hblank f hf] at hb, fun _ => ⟨empty, rfl⟩⟩, ?_⟩
    intro c hc
    cases hc
    exact ⟨[], by rw [← hparts, hne]; exact .nil, rfl, rfl, by simpa [empty] using hblank⟩
  refine ⟨⟨?binds, ?joins⟩, ?shape⟩
  case binds =>
    rintro ⟨c, hc⟩ f hf hb
    obtain ⟨pieces, hps, hcheck, -⟩ := (ofFilter_ok_iff_each hne).1 hc
    have hmem : f ∈ (RowFilter.fragments fs).parts := by simp [hparts, hf, hb]
    obtain ⟨p, hp, hfrag⟩ := mapM_ok_of_mem (mapM_eq_ok_iff.2 hps) hmem
    exact ⟨p.clause, (ofText_ok_iff hb).2 ⟨p, hfrag, hcheck p hp, rfl⟩⟩
  case joins =>
    intro hall
    -- each fragment's own binding gives its bound fragment and its passed checks
    have hpieces : ∀ f ∈ (RowFilter.fragments fs).parts,
        ∃ p, ofFragment clock f = .ok p ∧ p.clause.sanityCheck = .ok () := by
      intro f hf
      obtain ⟨c, hc⟩ := hall f (List.mem_of_mem_filter hf) (parts_nonblank hf)
      obtain ⟨p, hp, hcheck, -⟩ := (ofText_ok_iff (parts_nonblank hf)).1 hc
      exact ⟨p, hp, hcheck⟩
    obtain ⟨pieces, hps⟩ := mapM_ok_of_forall fun f hf => (hpieces f hf).imp fun _ h => h.1
    refine ⟨_, (ofFilter_ok_iff_each hne).2 ⟨pieces, mapM_eq_ok_iff.1 hps, fun p hp => ?_, rfl⟩⟩
    obtain ⟨f, hf, hp⟩ := (mapM_eq_ok hps).2 p hp
    obtain ⟨p', hp', hcheck⟩ := hpieces f hf
    rw [hp] at hp'
    cases hp'
    exact hcheck
  case shape =>
    intro c hc
    obtain ⟨pieces, hps, hcheck, rfl⟩ := (ofFilter_ok_iff_each hne).1 hc
    obtain ⟨bound, hbound, hmap⟩ := bound_of_pieces (fun f hf => parts_nonblank hf) hps hcheck
    have hlen : (RowFilter.fragments fs).parts.length = bound.length := hbound.length_eq
    refine ⟨bound, hbound, ?_, flatMap_params hmap, ?_⟩
    · show " AND ".intercalate (pieces.map (wrapText _)) = _
      rw [map_wrapText hmap, hlen]
    · -- some fragment is not blank, and its clause makes the joined text non-empty
      obtain ⟨f, rest, hfr⟩ := List.exists_cons_of_ne_nil hne
      have hf : f ∈ (RowFilter.fragments fs).parts := by simp [hfr]
      rw [hfr] at hps
      cases hps with
      | cons hp _ =>
        refine ⟨fun h => absurd h (joinClause_text_ne_empty _ (ofFragment_nonblank (parts_nonblank hf) hp).1),
          fun hall => ?_⟩
        have := hall f (List.mem_of_mem_filter hf)
        rw [parts_nonblank hf] at this
        cases this

end BoundClause
end QueryShield
