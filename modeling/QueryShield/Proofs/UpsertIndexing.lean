import Mathlib
import QueryShield.Proofs.Conversation
import QueryShield.Query.Statements

/-!
# An upsert reads its key by index, always in bounds

An upsert takes the first quoted column as the key column and each row's first fitted value as
its key, and a row is fitted by taking its first `width` values.  `upsertRow` writes these
reads with defaults (`headD`, `take`), which would hide a read past the end of a list.  Here
the same operation is written with every read at an index and the bound of each index proved
where it is read: the columns come with the fact that there is one at least
(`targetColumnsAt`), a fitted row with the fact that it has `width` values (`fitRowAt`), and
its values are read by index from a row that has at least `width` of them (`fittedAt`).

`upsert_reads_in_bounds` states that `upsert` is that operation, whatever the pool answers:
the target columns are never empty, a row is fitted to exactly `width` values when it has at
least `width` and refused otherwise, and so no read of an upsert goes past the end of a list.
-/

namespace QueryShield

open Query

/-! ## Queries whose results carry a fact -/

/-- A query whose results carry a proof of `p` succeeds only with values that satisfy `p`,
whatever the backends answer. -/
theorem Query.sat_val {α : Type} {p : α → Prop} (x : Query {a // p a}) :
    Sat (fun _ => True) p (Subtype.val <$> x) := by
  refine Sat.map (R := fun _ => True) ?_ fun a _ => a.2
  unfold Sat
  exact (Talk.sat_true x.run).mono (fun _ h => h) fun _ _ _ _ => trivial

namespace Statements

/-! ## Reads by index -/

/-- A row's first `width` values, each read at its index, with its stand-in words replaced. -/
def fittedAt (clock : Stamp) (row : Row) (width : Nat) (h : width ≤ row.length) : Row :=
  List.ofFn fun i : Fin width => Datum.normalize clock (row.get ⟨i.val, Nat.lt_of_lt_of_le i.isLt h⟩)

@[simp] theorem length_fittedAt (clock : Stamp) (row : Row) (width : Nat) (h : width ≤ row.length) :
    (fittedAt clock row width h).length = width :=
  List.length_ofFn

theorem fittedAt_eq (clock : Stamp) (row : Row) (width : Nat) (h : width ≤ row.length) :
    fittedAt clock row width h = (row.take width).map (Datum.normalize clock) := by
  apply List.ext_getElem
  · simp [h]
  · intro n h₁ h₂
    simp [fittedAt]

/-- A row fitted to `width` values read by index, with the fact that there are `width` of
them; a shorter row is refused. -/
def fitRowAt (clock : Stamp) (table : String) (row : Row) (width : Nat) :
    Query {values : Row // values.length = width} :=
  if h : width ≤ row.length then pure ⟨fittedAt clock row width h, length_fittedAt clock row width h⟩
  else fail (.invalid ("row for '" ++ table ++ "' has " ++ toString row.length ++
    " values, expected " ++ toString width))

/-- The quoted forms of names that are not none, the first of them in front. -/
def quoteColumnsAt (names : List String) (h : names ≠ []) :
    Except GuardError {quoted : List String // 0 < quoted.length} := do
  let first ← Name.quoteColumn (names.head h)
  let rest ← Name.quoteColumns names.tail
  pure ⟨first :: rest, Nat.succ_pos _⟩

/-- The quoted target columns with the fact that there is one at least: the given ones when
there are some, the table's own otherwise, and a table without columns refused. -/
def targetColumnsAt (table : String) (columns : Option (List String)) :
    Query {cs : List String // 0 < cs.length} := do
  let names ← (columns.filter fun ns => !ns.isEmpty).elim (columnNames table) pure
  if h : names = [] then fail (.invalid ("table '" ++ table ++ "' has no columns"))
  else guard (quoteColumnsAt names h)

/-- One row of an upsert with its key column and its key read by index: the first quoted column
and the first fitted value. -/
def upsertRowAt (clock : Stamp) (table q : String) (cs : List String) (hcs : 0 < cs.length)
    (row : Row) : Query WriteResult := do
  if row.isEmpty then return WriteResult.zero
  let values ← fitRowAt clock table row cs.length
  let keyColumn := cs.get ⟨0, hcs⟩
  let key := values.1.get ⟨0, hcs.trans_eq values.2.symm⟩
  let existing ← fetch ("SELECT COUNT(*) FROM " ++ q ++ " WHERE " ++ keyColumn ++ " = ?") [key]
  if countOf existing > 0 then updateRows q cs values.1 (BoundClause.equals keyColumn key)
  else insertRows q cs [values.1]

/-- An upsert whose reads are all by index. -/
def upsertAt (clock : Stamp) (table : String) (rows : List Row) (columns : Option (List String)) :
    Query WriteResult := do
  let q ← quoted table
  let cs ← targetColumnsAt table columns
  rows.foldlM (fun acc row => do pure (acc.merge (← upsertRowAt clock table q cs.1 cs.2 row)))
    WriteResult.zero

/-! ## The reads with defaults are the reads by index -/

theorem fitRow_eq_fitRowAt (clock : Stamp) (table : String) (row : Row) (width : Nat) :
    fitRow clock table row width = Subtype.val <$> fitRowAt clock table row width := by
  unfold fitRow fitRowAt
  by_cases h : width ≤ row.length
  · rw [if_neg (Nat.not_lt.2 h), dif_pos h, map_pure]
    exact congrArg pure (fittedAt_eq clock row width h).symm
  · rw [if_pos (Nat.lt_of_not_le h), dif_neg h]
    exact (ExceptT.map_throw _ _).symm

theorem quoteColumns_eq_quoteColumnsAt (names : List String) (h : names ≠ []) :
    Name.quoteColumns names = Subtype.val <$> quoteColumnsAt names h := by
  obtain ⟨n, ns, rfl⟩ := List.exists_cons_of_ne_nil h
  simp only [quoteColumnsAt, Name.quoteColumns, List.head_cons, List.tail_cons, List.mapM_cons]
  cases Name.quoteColumn n with
  | error e => rfl
  | ok first =>
    cases ns.mapM Name.quoteColumn with
    | error e => rfl
    | ok rest => rfl

theorem targetColumns_eq_targetColumnsAt (table : String) (columns : Option (List String)) :
    targetColumns table columns = Subtype.val <$> targetColumnsAt table columns := by
  unfold targetColumns targetColumnsAt
  dsimp only
  -- once the names are chosen, both refuse no names and quote the others alike
  have htail : ∀ names : List String,
      (if names.isEmpty then
        (fail (.invalid ("table '" ++ table ++ "' has no columns")) : Query Unit) >>= fun _ =>
          guard (Name.quoteColumns names)
      else guard (Name.quoteColumns names)) =
      Subtype.val <$> (if h : names = [] then fail (.invalid ("table '" ++ table ++ "' has no columns"))
        else guard (quoteColumnsAt names h)) := by
    intro names
    by_cases hnil : names = []
    · rw [if_pos (List.isEmpty_iff.2 hnil), dif_pos hnil, fail, ExceptT.bind_throw]
      exact (ExceptT.map_throw _ _).symm
    · rw [if_neg (by simpa using hnil), dif_neg hnil, quoteColumns_eq_quoteColumnsAt names hnil]
      cases quoteColumnsAt names hnil with
      | error e => exact (ExceptT.map_throw _ _).symm
      | ok cs => exact (map_pure _ _).symm
  rw [map_bind]
  cases columns with
  | none => exact congrArg (columnNames table >>= ·) (funext htail)
  | some ns =>
    cases hns : ns.isEmpty with
    | true =>
      simp only [hns, if_true, Option.filter, Bool.not_true, Option.elim]
      exact congrArg (columnNames table >>= ·) (funext htail)
    | false =>
      have hsel : (Option.filter (fun ns => !ns.isEmpty) (some ns)).elim (columnNames table) pure =
          pure ns := by
        simp [Option.filter, hns]
      dsimp only
      rw [if_neg (by simp [hns]), hsel, pure_bind, pure_bind]
      exact htail ns

theorem upsertRow_eq_upsertRowAt (clock : Stamp) (table q : String) (cs : List String)
    (hcs : 0 < cs.length) (row : Row) :
    upsertRow clock table q cs row = upsertRowAt clock table q cs hcs row := by
  unfold upsertRow upsertRowAt
  rw [fitRow_eq_fitRowAt, bind_map_left]
  congr 1
  congr 1
  funext values
  -- with at least one column and that many values, the defaults are the first of each
  have hkey : cs.headD "" = cs.get ⟨0, hcs⟩ := by
    obtain ⟨c, cs', rfl⟩ := List.exists_cons_of_ne_nil (List.ne_nil_of_length_pos hcs)
    rfl
  have hvalue : values.1.headD .null = values.1.get ⟨0, hcs.trans_eq values.2.symm⟩ := by
    obtain ⟨v, vs, hv⟩ := List.exists_cons_of_ne_nil
      (List.ne_nil_of_length_pos (hcs.trans_eq values.2.symm))
    simp [hv]
  rw [hkey, hvalue]

/-- The target columns are never empty, whatever the pool answers: a table without columns is
refused. -/
theorem sat_targetColumns_nonempty (table : String) (columns : Option (List String)) :
    Sat (fun _ => True) (fun cs => 0 < cs.length) (targetColumns table columns) := by
  rw [targetColumns_eq_targetColumnsAt]
  exact sat_val _

theorem upsert_eq_upsertAt (clock : Stamp) (table : String) (rows : List Row)
    (columns : Option (List String)) :
    upsert clock table rows columns = upsertAt clock table rows columns := by
  unfold upsert upsertAt
  congr 1
  funext q
  rw [targetColumns_eq_targetColumnsAt, bind_map_left]
  congr 1
  funext cs
  simp only [upsertRow_eq_upsertRowAt clock table q cs.1 cs.2]

/-- An upsert never reads past the end of a list: whatever the pool answers, its target
columns are never empty, a row is fitted by reading its first `width` values at their indices
when it has at least `width` values, giving exactly `width` of them, and is refused otherwise,
and the whole upsert is the operation that reads its key column, its keys and its rows by
index with every index in bounds. -/
theorem upsert_reads_in_bounds (clock : Stamp) (table : String) (rows : List Row)
    (columns : Option (List String)) :
    Sat (fun _ => True) (fun cs => 0 < cs.length) (targetColumns table columns) ∧
      (∀ row width, fitRow clock table row width = Subtype.val <$> fitRowAt clock table row width) ∧
      upsert clock table rows columns = upsertAt clock table rows columns :=
  ⟨sat_targetColumns_nonempty table columns, fitRow_eq_fitRowAt clock table,
    upsert_eq_upsertAt clock table rows columns⟩

end Statements
end QueryShield
