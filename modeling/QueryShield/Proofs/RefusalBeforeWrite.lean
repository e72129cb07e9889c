import Mathlib
import QueryShield.Proofs.StatementSafety

/-!
# A refused input and the writes before it

The query layer refuses input in two ways: text the guard finds unsafe (`QueryFault.rejected`)
and well-formed input it cannot use (`QueryFault.invalid`).  `Front.perform_refusal_before_write`
states where such a refusal stands among the requests of a write operation, whatever the
database and the store answer: every write refuses before its first write request, with one
exception.  The upsert checks each row inside its loop, after the rows before it have been
counted and written, so a row shorter than the target columns is refused after earlier rows
were written; that refusal is the only one that can follow a write.
`Front.upsert_refuses_short_row_after_write` shows it on a concrete run.

The proof tracks two properties of a conversation that ends in a result or a failure:
`Talk.RefusesOnly late` (every refusal it can end with satisfies `late`) and
`Talk.RefusesFirst late` (a refusal that follows a write satisfies `late`).  The checks before a
write make no write request, so a conversation that starts with them keeps `RefusesFirst`
(`Talk.refusesFirst_bind_execFree`); a write fails only in the pool, so the statements keep
`RefusesOnly` (`Statements.refusesOnly_execute`).  A run of a conversation with
`RefusesFirst late` ends in a refusal only with no write among its requests, or with a refusal
that `late` allows (`Talk.run_of_refusesFirst`).
-/

namespace QueryShield

/-- Whether a failure refuses the input: unsafe text, or input that cannot be used. -/
def QueryFault.isRefusal : QueryFault → Bool
  | .rejected _ | .invalid _ => true
  | .pool _ | .cache _ => false

/-- Whether a request asks the pool to run a write. -/
def Request.isExecute : Request → Bool
  | .execute .. => true
  | _ => false

/-- Whether an operation of the front writes. -/
def Operation.isWrite : Operation → Bool
  | .createTable .. | .removeTable _ | .installTrigger .. | .removeTrigger _ | .insert ..
  | .update .. | .upsert .. | .delete .. => true
  | _ => false

namespace Talk

variable {α β : Type} {late : QueryFault → Prop}

/-- Every refusal the conversation can end with satisfies `late`. -/
def RefusesOnly (late : QueryFault → Prop) (t : Talk (Except QueryFault α)) : Prop :=
  Sat (fun _ => True) (fun res => ∀ f, res = .error f → f.isRefusal → late f) t

/-- Along every run, a refusal that follows a write satisfies `late`: before the first write
request any refusal may come, after it only those that `late` allows. -/
def RefusesFirst (late : QueryFault → Prop) : Talk (Except QueryFault α) → Prop
  | .done _ => True
  | .ask r next =>
    ∀ x, if r.isExecute then RefusesOnly late (next x) else RefusesFirst late (next x)

theorem RefusesOnly.refusesFirst {t : Talk (Except QueryFault α)} (h : RefusesOnly late t) :
    RefusesFirst late t := by
  induction t with
  | done res => trivial
  | ask r next ih =>
    intro x
    have hx : RefusesOnly late (next x) := (sat_ask.1 h).2 x
    split
    · exact hx
    · exact ih x hx

theorem RefusesFirst.mono {late' : QueryFault → Prop} {t : Talk (Except QueryFault α)}
    (h : RefusesFirst late t) (hlate : ∀ f, late f → late' f) : RefusesFirst late' t := by
  induction t with
  | done res => trivial
  | ask r next ih =>
    intro x
    have hx := h x
    by_cases hr : r.isExecute = true
    · rw [if_pos hr] at hx ⊢
      exact hx.mono (fun _ h => h) fun res hres f he hf => hlate f (hres f he hf)
    · rw [if_neg hr] at hx ⊢
      exact ih x hx

/-- Checks that make no write request, then a conversation in which refusals come first. -/
theorem refusesFirst_bind_execFree {t : Talk (Except QueryFault α)}
    {k : Except QueryFault α → Talk (Except QueryFault β)}
    (ht : Sat (fun r => r.isExecute = false) (fun _ => True) t)
    (hk : ∀ res, RefusesFirst late (k res)) : RefusesFirst late (t.bind k) := by
  induction t with
  | done res => exact hk res
  | ask r next ih =>
    intro x
    rw [if_neg (by simp [(sat_ask.1 ht).1])]
    exact ih x ((sat_ask.1 ht).2 x)

/-- A conversation in which refusals come first, then one that refuses only as `late` allows
whenever the first ended without a refusal `late` forbids. -/
theorem refusesFirst_bind {t : Talk (Except QueryFault α)}
    {k : Except QueryFault α → Talk (Except QueryFault β)} (ht : RefusesFirst late t)
    (hk : ∀ res, RefusesFirst late (k res))
    (hlate : ∀ res, (∀ f, res = .error f → f.isRefusal → late f) → RefusesOnly late (k res)) :
    RefusesFirst late (t.bind k) := by
  induction t with
  | done res => exact hk res
  | ask r next ih =>
    intro x
    have hx := ht x
    by_cases hr : r.isExecute = true
    · rw [if_pos hr] at hx ⊢
      exact Sat.bind hx hlate
    · rw [if_neg hr] at hx ⊢
      exact ih x hx

theorem RefusesOnly.bind {t : Talk (Except QueryFault α)}
    {k : Except QueryFault α → Talk (Except QueryFault β)} (ht : RefusesOnly late t)
    (hk : ∀ res, (∀ f, res = .error f → f.isRefusal → late f) → RefusesOnly late (k res)) :
    RefusesOnly late (t.bind k) :=
  Sat.bind ht hk

/-- A run of a conversation in which refusals come first ends in a refusal only when it made no
write request, or with a refusal that `late` allows. -/
theorem run_of_refusesFirst {σ : Type} {t : Talk (Except QueryFault α)} (h : RefusesFirst late t)
    (answer : (r : Request) → σ → r.Answer × σ) (s : σ) {f : QueryFault}
    (hres : (Talk.run answer t s).1 = .error f) (hf : f.isRefusal = true) :
    (∀ r ∈ Talk.requests answer t s, r.isExecute = false) ∨ late f := by
  induction t generalizing s with
  | done res => exact .inl (by simp)
  | ask r next ih =>
    have hx := h (answer r s).1
    simp only [Talk.run] at hres
    split at hx
    · -- after a write, the conversation refuses only as `late` allows
      exact .inr (hx.run answer _ f hres hf)
    · rename_i hr
      refine (ih _ hx _ hres).imp_left fun hrest r' hr' => ?_
      simp only [Talk.requests, List.mem_cons] at hr'
      rcases hr' with rfl | hr'
      · simpa using hr
      · exact hrest r' hr'

theorem refusesFirst_done (res : Except QueryFault α) : RefusesFirst late (.done res) := trivial

/- From here on `RefusesFirst` is read through its rules only: unfolding it on a concrete query
would make Lean evaluate the query's checks. -/
attribute [irreducible] RefusesFirst

end Talk

namespace Query

variable {α β : Type} {late : QueryFault → Prop}

open Talk

/-- A query that makes no write request. -/
abbrev ExecFree (x : Query α) : Prop := Sat (fun r => r.isExecute = false) (fun _ => True) x

theorem refusesFirst_bind_execFree {x : Query α} {f : α → Query β} (hx : ExecFree x)
    (hf : ∀ a, RefusesFirst late (f a).run) : RefusesFirst late (x >>= f).run := by
  show RefusesFirst late (Talk.bind x.run _)
  refine Talk.refusesFirst_bind_execFree hx.talk fun res => ?_
  cases res with
  | error e => exact refusesFirst_done _
  | ok a => exact hf a

theorem refusesFirst_bind {x : Query α} {f : α → Query β} (hx : RefusesFirst late x.run)
    (hf : ∀ a, RefusesOnly late (f a).run) : RefusesFirst late (x >>= f).run := by
  show RefusesFirst late (Talk.bind x.run _)
  refine Talk.refusesFirst_bind hx (fun res => ?_) fun res hres => ?_
  · cases res with
    | error e => exact refusesFirst_done _
    | ok a => exact (hf a).refusesFirst
  · cases res with
    | error e => exact sat_done.2 fun f he hf => hres f (by cases he; rfl) hf
    | ok a => exact hf a

theorem refusesOnly_bind {x : Query α} {f : α → Query β} (hx : RefusesOnly late x.run)
    (hf : ∀ a, RefusesOnly late (f a).run) : RefusesOnly late (x >>= f).run := by
  show RefusesOnly late (Talk.bind x.run _)
  refine hx.bind fun res hres => ?_
  cases res with
  | error e => exact sat_done.2 fun f he hf => hres f (by cases he; rfl) hf
  | ok a => exact hf a

theorem refusesOnly_pure (a : α) : RefusesOnly late (pure a : Query α).run :=
  sat_done.2 fun _ he => nomatch he

theorem refusesOnly_lift (t : Talk α) : RefusesOnly late (ExceptT.lift t : Query α).run :=
  Talk.Sat.bind (sat_true t) fun _ _ => sat_done.2 fun _ he => nomatch he

theorem refusesOnly_fail {f : QueryFault} (h : f.isRefusal = true → late f) :
    RefusesOnly late (fail f : Query α).run :=
  sat_done.2 fun f' he hf => by cases he; exact h hf

theorem refusesFirst_fail_bind (e : QueryFault) (f : α → Query β) :
    RefusesFirst late ((fail e : Query α) >>= f).run :=
  refusesFirst_done _

theorem refusesOnly_foldlM {f : β → α → Query β} (l : List α) {init : β}
    (hf : ∀ b, ∀ a ∈ l, RefusesOnly late (f b a).run) : RefusesOnly late (l.foldlM f init).run := by
  induction l generalizing init with
  | nil => exact refusesOnly_pure init
  | cons a l ih =>
    rw [List.foldlM_cons]
    exact refusesOnly_bind (hf init a (by simp)) fun b =>
      ih fun b' a' ha' => hf b' a' (by simp [ha'])

/-- The pool's answers become pool failures, never refusals. -/
theorem refusesOnly_execute (sql : String) (params : List Datum) :
    RefusesOnly late (execute sql params).run := by
  refine refusesOnly_bind (refusesOnly_lift _) fun res => ?_
  cases res with
  | ok w => exact refusesOnly_pure w
  | error f => exact refusesOnly_fail fun h => nomatch h

theorem refusesOnly_fetch (sql : String) (params : List Datum) :
    RefusesOnly late (fetch sql params).run := by
  refine refusesOnly_bind (refusesOnly_lift _) fun res => ?_
  cases res with
  | ok rows => exact refusesOnly_pure rows
  | error f => exact refusesOnly_fail fun h => nomatch h

end Query

namespace Statements

open Query Talk

variable {late : QueryFault → Prop}

/-! ## The checks before the first write -/

theorem execFree_describe (table : String) : ExecFree (describe table) := by
  unfold describe
  exact ((sat_quoted table).mono (fun _ h => h) fun _ _ => trivial).bind fun _ _ =>
    (sat_fetch (P := fun r => r.isExecute = false) rfl).bind fun _ _ => sat_pure trivial

theorem execFree_columnNames (table : String) : ExecFree (columnNames table) :=
  (execFree_describe table).bind fun _ _ => sat_pure (Q := fun _ => True) trivial

theorem execFree_targetColumns (table : String) (columns : Option (List String)) :
    ExecFree (targetColumns table columns) := by
  unfold targetColumns
  -- the names come from the caller or from the table; then they are checked and quoted
  have htail : ∀ names : List String, ExecFree
      (if names.isEmpty then
        (fail (.invalid ("table '" ++ table ++ "' has no columns")) : Query Unit) >>= fun _ =>
          guard (Name.quoteColumns names)
      else guard (Name.quoteColumns names)) := by
    intro names
    split
    · exact (sat_fail (Q := fun _ => True) _).bind fun _ _ => sat_guard fun _ _ => trivial
    · exact sat_guard fun _ _ => trivial
  dsimp only
  split
  · split
    · exact (execFree_columnNames table).bind fun names _ => htail names
    · exact (sat_pure (Q := fun _ => True) trivial).bind fun names _ => htail names
  · exact (execFree_columnNames table).bind fun names _ => htail names

theorem execFree_quoted (name : String) : ExecFree (quoted name) :=
  (sat_quoted name).mono (fun _ h => h) fun _ _ => trivial

/-! ## Each write refuses before writing -/

theorem refusesFirst_removeTable (table : String) :
    RefusesFirst late (removeTable table).run := by
  unfold removeTable
  exact refusesFirst_bind_execFree (execFree_quoted table) fun _ =>
    (refusesOnly_execute _ _).refusesFirst

theorem refusesFirst_removeTrigger (name : String) :
    RefusesFirst late (removeTrigger name).run := by
  unfold removeTrigger
  exact refusesFirst_bind_execFree (execFree_quoted name) fun _ =>
    (refusesOnly_execute _ _).refusesFirst

theorem refusesFirst_createTable (table : String) (columns : List (String × String)) :
    RefusesFirst late (createTable table columns).run := by
  unfold createTable
  refine refusesFirst_bind_execFree (execFree_quoted table) fun q => ?_
  dsimp only
  split
  · exact refusesFirst_fail_bind _ _
  · refine refusesFirst_bind_execFree (sat_ask rfl) fun version => ?_
    refine refusesFirst_bind_execFree ((sat_mapM columns fun c _ =>
      sat_columnDefinition _ c).mono (fun _ h => h) fun _ _ => trivial) fun _ => ?_
    exact (refusesOnly_execute _ _).refusesFirst

/-- The definition is checked before the old trigger is dropped, and the name before the drop
is sent. -/
theorem refusesFirst_installTrigger (name table timing body : String) :
    RefusesFirst late (installTrigger name table timing body).run := by
  unfold installTrigger removeTrigger
  refine refusesFirst_bind_execFree (sat_guard fun _ _ => trivial) fun statement => ?_
  rw [bind_assoc]
  refine refusesFirst_bind_execFree (execFree_quoted name) fun q => ?_
  exact (refusesOnly_bind (refusesOnly_execute _ _) fun _ =>
    refusesOnly_bind (refusesOnly_execute _ _) fun _ => refusesOnly_pure _).refusesFirst

theorem refusesFirst_insert (clock : Stamp) (table : String) (rows : List Row)
    (columns : Option (List String)) : RefusesFirst late (insert clock table rows columns).run := by
  unfold insert
  refine refusesFirst_bind_execFree (execFree_quoted table) fun q => ?_
  refine refusesFirst_bind_execFree (execFree_targetColumns table columns) fun cs => ?_
  split
  · exact refusesFirst_done _
  · -- every row is fitted before the one insert is sent
    refine refusesFirst_bind_execFree ((sat_mapM rows fun r _ =>
      sat_fitRow clock table r cs.length).mono (fun _ h => h) fun _ _ => trivial) fun fitted => ?_
    exact (refusesOnly_execute _ _).refusesFirst

theorem refusesFirst_update (clock : Stamp) (table : String) (values : Row)
    (columns : Option (List String)) (filter : RowFilter) :
    RefusesFirst late (update clock table values columns filter).run := by
  unfold update
  refine refusesFirst_bind_execFree (execFree_quoted table) fun q => ?_
  refine refusesFirst_bind_execFree (execFree_targetColumns table columns) fun cs => ?_
  refine refusesFirst_bind_execFree (sat_fitRow clock table values _) fun vs => ?_
  refine refusesFirst_bind_execFree (sat_clause.mono (fun _ h => h) fun _ _ => trivial)
    fun clause => ?_
  exact (refusesOnly_execute _ _).refusesFirst

theorem refusesFirst_delete (clock : Stamp) (table : String) (filter : RowFilter) :
    RefusesFirst late (delete clock table filter).run := by
  unfold delete
  refine refusesFirst_bind_execFree (execFree_quoted table) fun q => ?_
  refine refusesFirst_bind_execFree (sat_clause.mono (fun _ h => h) fun _ _ => trivial)
    fun clause => ?_
  exact (refusesOnly_execute _ _).refusesFirst

/-! ## The upsert refuses a short row after the rows before it -/

/-- The refusal of a non-empty row of `rows` that is shorter than the target columns. -/
def ShortRowRefusal (table : String) (rows : List Row) (f : QueryFault) : Prop :=
  ∃ row ∈ rows, row ≠ [] ∧ ∃ width, row.length < width ∧
    f = .invalid ("row for '" ++ table ++ "' has " ++ toString row.length ++ " values, expected " ++
      toString width)

/-- One row of an upsert refuses only a short row; it is counted and written after its check. -/
theorem refusesOnly_upsertRow (clock : Stamp) (table q : String) (cs : List String)
    {rows : List Row} {row : Row} (hrow : row ∈ rows) :
    RefusesOnly (ShortRowRefusal table rows) (upsertRow clock table q cs row).run := by
  unfold upsertRow
  split
  · exact refusesOnly_pure _
  · rename_i hempty
    refine refusesOnly_bind ?_ fun values => ?_
    · unfold fitRow
      split
      · rename_i hshort
        exact refusesOnly_fail fun _ =>
          ⟨row, hrow, by simpa using hempty, cs.length, hshort, rfl⟩
      · exact refusesOnly_pure _
    · refine refusesOnly_bind (refusesOnly_fetch _ _) fun existing => ?_
      split
      · exact refusesOnly_execute _ _
      · exact refusesOnly_execute _ _

/-- The names are checked before the first row; each row is then checked in its turn, after the
rows before it were written, so only a short row is refused after a write. -/
theorem refusesFirst_upsert (clock : Stamp) (table : String) (rows : List Row)
    (columns : Option (List String)) :
    RefusesFirst (ShortRowRefusal table rows) (upsert clock table rows columns).run := by
  unfold upsert
  refine refusesFirst_bind_execFree (execFree_quoted table) fun q => ?_
  refine refusesFirst_bind_execFree (execFree_targetColumns table columns) fun cs => ?_
  exact (refusesOnly_foldlM rows fun _ row hrow =>
    refusesOnly_bind (refusesOnly_upsertRow clock table q cs hrow) fun _ =>
      refusesOnly_pure _).refusesFirst

end Statements

namespace Front

open Query Talk Statements

/-- The cache's deletions after a write make no write request and never fail the write. -/
theorem refusesFirst_cachedWrite {α : Type} {late : QueryFault → Prop} (binding : Option Binding)
    (patterns : KeySpace → List String) {direct : Query α} (g : α → Outcome)
    (h : RefusesFirst late direct.run) :
    RefusesFirst late (g <$> cachedWrite binding patterns direct).run := by
  rw [map_eq_pure_bind]
  refine refusesFirst_bind ?_ fun _ => refusesOnly_pure _
  cases binding with
  | none => exact h
  | some b =>
    exact refusesFirst_bind h fun _ =>
      refusesOnly_bind (refusesOnly_lift _) fun _ => refusesOnly_pure _

/-- Every write of the front refuses before its first write request, but for the short rows
of an upsert. -/
theorem refusesFirst_perform (clock : Stamp) (binding : Option Binding) {op : Operation}
    (hop : op.isWrite = true) :
    RefusesFirst (fun f => ∃ table rows columns, op = .upsert table rows columns ∧
      ShortRowRefusal table rows f) (perform clock binding op).run := by
  cases op <;> simp only [Operation.isWrite, Bool.false_eq_true] at hop <;> simp only [perform]
  case createTable table columns =>
    exact refusesFirst_cachedWrite _ _ _ (refusesFirst_createTable table columns)
  case removeTable table => exact refusesFirst_cachedWrite _ _ _ (refusesFirst_removeTable table)
  case installTrigger name table timing body =>
    exact refusesFirst_cachedWrite _ _ _ (refusesFirst_installTrigger name table timing body)
  case removeTrigger name => exact refusesFirst_cachedWrite _ _ _ (refusesFirst_removeTrigger name)
  case insert table rows columns =>
    exact refusesFirst_cachedWrite _ _ _ (refusesFirst_insert clock table rows columns)
  case update table values columns filter =>
    exact refusesFirst_cachedWrite _ _ _ (refusesFirst_update clock table values columns filter)
  case upsert table rows columns =>
    exact refusesFirst_cachedWrite _ _ _ ((refusesFirst_upsert clock table rows columns).mono
      fun f h => ⟨table, rows, columns, rfl, h⟩)
  case delete table filter =>
    exact refusesFirst_cachedWrite _ _ _ (refusesFirst_delete clock table filter)

/-- Whatever the database and the store answer, a write operation that refuses its input
(`Injection` or `InvalidInput`) made no write request, unless it is an upsert refusing one of
its rows for being shorter than the target columns: that check runs inside the loop, after the
rows before it were written. -/
theorem perform_refusal_before_write (clock : Stamp) (binding : Option Binding) {op : Operation}
    (hop : op.isWrite = true) {σ : Type} (answer : (r : Request) → σ → r.Answer × σ) (s : σ)
    {f : QueryFault} (hres : (Talk.run answer (perform clock binding op).run s).1 = .error f)
    (hrefusal : f.isRefusal = true) :
    (∀ r ∈ Talk.requests answer (perform clock binding op).run s, r.isExecute = false) ∨
      ∃ table rows columns, op = .upsert table rows columns ∧ ShortRowRefusal table rows f :=
  run_of_refusesFirst (refusesFirst_perform clock binding hop) answer s hres hrefusal

/-- Dropping a table whose name holds `;` is refused with no request at all. -/
theorem refusal_before_write_of_bad_name :
    let clock : Stamp := ⟨2024, 1, 2, 3, 4, 5, 0⟩
    let f : QueryFault := .rejected (.injection "a;b" .symbol)
    (Operation.removeTable "a;b").isWrite = true ∧
      (Stage.run (perform clock none (.removeTable "a;b")).run {}).1 = .error f ∧
      f.isRefusal = true ∧
      ((∀ r ∈ Talk.requests Stage.answer (perform clock none (.removeTable "a;b")).run {},
          r.isExecute = false) ∨
        ∃ table rows columns, Operation.removeTable "a;b" = .upsert table rows columns ∧
          ShortRowRefusal table rows f) :=
  have hres : (Stage.run (perform ⟨2024, 1, 2, 3, 4, 5, 0⟩ none (.removeTable "a;b")).run {}).1 =
      .error (.rejected (.injection "a;b" .symbol)) := by decide +kernel
  ⟨rfl, hres, rfl, perform_refusal_before_write _ _ rfl _ _ hres rfl⟩

/-- An upsert of `[1, 'a']` then `[2]` into the columns `id, name` of `users`, on a database
that has no row yet: the first row is counted and inserted, then the second row is refused as
too short.  The refusal comes after a write. -/
theorem upsert_refuses_short_row_after_write :
    let clock : Stamp := ⟨2024, 1, 2, 3, 4, 5, 0⟩
    let op : Operation := .upsert "users" [[.int 1, .text "a"], [.int 2]] (some ["id", "name"])
    (Stage.run (perform clock none op).run {}).1 =
        .error (.invalid "row for 'users' has 1 values, expected 2") ∧
      (Talk.requests Stage.answer (perform clock none op).run {}).map Request.poolText? =
        [some "SELECT COUNT(*) FROM `users` WHERE `id` = ?",
          some "INSERT INTO `users` (`id`, `name`) VALUES (?, ?)"] ∧
      (Talk.requests Stage.answer (perform clock none op).run {}).map Request.isExecute =
        [false, true] := by
  decide +kernel

end Front

end QueryShield
