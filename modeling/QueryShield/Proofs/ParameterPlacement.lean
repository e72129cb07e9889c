import Mathlib
import QueryShield.Proofs.StatementSafety

/-!
# Placeholders and the parameters bound to them

A statement sent to the pool carries its values as parameters, bound in order to the marks `?`
that stand outside its string literals (`Statements.placeholders`).  Operation by operation,
the front sends as many parameters as placeholders, in the order the operation means
(`Front.Placed`):

* a row read, a count and a delete bind the filter's parameters, and all their placeholders
  stand in the `WHERE` text at the end;
* an insert writes one group of `w` placeholders per row and binds the rows fitted to the `w`
  columns one after the other, so row `i` fills the parameters `i * w` to `i * w + w - 1`;
* an update binds the `w` values of its `SET` before the filter's parameters;
* an upsert checks each row's key with one parameter, the row's first value, then updates by
  that key (the `w` values, then the key) or inserts the row;
* the trigger names of a named database bind that name, and every other statement, the lookup
  of a table's columns included, binds nothing.

Caller text that reaches a statement as written brings its own marks and quotes: a trigger
definition, and a select-list expression, which the screen lets through with a `?`
(`Front.verbatim_marks_unbound`).  The rule holds for every other operation, and for a row
read whose expression holds no `?` and no quote.

The proof follows the one for inert statements: each builder is shown to send statements of
its own shape (`Statements.Sends`), the cache adds no statement, and the count of placeholders
follows from each shape.
-/

namespace QueryShield

/-- The statement and parameters of a request to the pool; none for the other requests. -/
def Request.pool? : Request → Option (String × List Datum)
  | .fetch sql params => some (sql, params)
  | .execute sql params => some (sql, params)
  | _ => none

theorem Request.poolText?_of_mem_pool? {r : Request} {p : String × List Datum} (h : p ∈ r.pool?) :
    p.1 ∈ r.poolText? := by
  cases r <;> simp only [Request.pool?, Option.mem_def, reduceCtorEq, Option.some.injEq] at h
  all_goals
    subst h
    rfl

theorem Request.pool?_eq_none {r : Request} (h : r.poolText? = none) : r.pool? = none := by
  cases r <;> simp_all [Request.pool?, Request.poolText?]

namespace Statements

/-! ## Placeholders outside string literals -/

/-- The characters of statement text outside its string literals, read from outside (`none`)
or from inside a literal opened by the quote `q`.  A literal ends at its own quote; inside it a
backslash escapes the next character, and a doubled quote ends the literal and opens it again,
keeping nothing. -/
def unquoted : Option Char → List Char → List Char
  | _, [] => []
  | none, c :: cs => if c = '\'' ∨ c = '"' then unquoted (some c) cs else c :: unquoted none cs
  | some q, '\\' :: _ :: cs => unquoted (some q) cs
  | some q, c :: cs => if c = q then unquoted none cs else unquoted (some q) cs

/-- The placeholders of a statement: its marks `?` outside string literals. -/
def placeholders (sql : String) : Nat := (unquoted none sql.toList).count '?'

example : placeholders "a = '?' AND b = ? AND c = 'it''s \\' ?'" = 1 := by decide

/-- Text without quotes is outside any literal throughout. -/
theorem unquoted_of_quote_free {l : List Char} (h : '\'' ∉ l ∧ '"' ∉ l) : unquoted none l = l := by
  induction l with
  | nil => rfl
  | cons c l ih =>
    simp only [List.mem_cons, not_or] at h
    have hc : ¬(c = '\'' ∨ c = '"') := by
      rintro (rfl | rfl)
      · exact h.1.1 rfl
      · exact h.2.1 rfl
    rw [unquoted, if_neg hc, ih ⟨h.1.2, h.2.2⟩]

theorem placeholders_of_quote_free {sql : String} (h : '\'' ∉ sql.toList ∧ '"' ∉ sql.toList) :
    placeholders sql = sql.toList.count '?' := by
  rw [placeholders, unquoted_of_quote_free h]

theorem quote_free_of_inert {s : String} (h : Inert s) : '\'' ∉ s.toList ∧ '"' ∉ s.toList :=
  ⟨fun hc => h _ hc (by decide), fun hc => h _ hc (by decide)⟩

/-! ## Requests with their parameters -/

/-- A request to the pool whose statement and parameters satisfy `F`; any other request. -/
def Sends (F : String → List Datum → Prop) (r : Request) : Prop := ∀ p ∈ r.pool?, F p.1 p.2

theorem sends_of_poolText {F : String → List Datum → Prop} {r : Request}
    (h : r.poolText? = none) : Sends F r := by
  intro p hp
  rw [Request.pool?_eq_none h] at hp
  cases hp

@[simp] theorem sends_fetch {F : String → List Datum → Prop} {sql : String}
    {params : List Datum} : Sends F (.fetch sql params) ↔ F sql params := by
  simp [Sends, Request.pool?]

@[simp] theorem sends_execute {F : String → List Datum → Prop} {sql : String}
    {params : List Datum} : Sends F (.execute sql params) ↔ F sql params := by
  simp [Sends, Request.pool?]

/-! ## Counting marks -/

/-- Text with no mark `?`. -/
def Unmarked (s : String) : Prop := '?' ∉ s.toList

@[simp] theorem unmarked_append {a b : String} : Unmarked (a ++ b) ↔ Unmarked a ∧ Unmarked b := by
  simp [Unmarked, not_or]

theorem count_of_unmarked {s : String} (h : Unmarked s) : s.toList.count '?' = 0 :=
  List.count_eq_zero.2 h

/-- Joining with a separator that has no mark adds no mark. -/
theorem count_intercalate {sep : String} (hsep : Unmarked sep) (ts : List String) :
    (sep.intercalate ts).toList.count '?' = (ts.map fun t => t.toList.count '?').sum := by
  induction ts with
  | nil => simp
  | cons t ts ih =>
    cases ts with
    | nil => simp
    | cons u us =>
      rw [String.intercalate_cons_cons, String.toList_append, String.toList_append,
        List.count_append, List.count_append, ih, count_of_unmarked hsep]
      simp

theorem unmarked_intercalate {sep : String} {ts : List String} (hsep : Unmarked sep)
    (h : ∀ t ∈ ts, Unmarked t) : Unmarked (sep.intercalate ts) := by
  apply List.count_eq_zero.1
  rw [count_intercalate hsep, List.sum_eq_zero]
  intro n hn
  obtain ⟨t, ht, rfl⟩ := List.mem_map.1 hn
  exact count_of_unmarked (h t ht)

/-- The fixed pieces of statement text that hold no mark. -/
def unmarkedTexts : List String :=
  ["*", ", ", " ", "(", ")", ".", "NULL", "SELECT VERSION()", "SHOW TABLES", "DESCRIBE ",
    triggersOfCurrent, "SHOW CREATE TRIGGER ",
    "SELECT TRIGGER_NAME FROM information_schema.triggers WHERE TRIGGER_SCHEMA = ",
    " ORDER BY TRIGGER_NAME",
    "SELECT TRIGGER_NAME FROM information_schema.triggers WHERE TRIGGER_SCHEMA = DATABASE() ORDER BY TRIGGER_NAME",
    "CREATE TABLE IF NOT EXISTS ", " (", ") ENGINE=InnoDB", "DROP TABLE IF EXISTS ",
    "DROP TRIGGER IF EXISTS ", "SELECT ", " FROM ", " WHERE ", " = ", "SELECT COUNT(", ") FROM ",
    "INSERT INTO ", ") VALUES ", "UPDATE ", " SET ", "SELECT COUNT(*) FROM ", "DELETE FROM "]

set_option maxRecDepth 20000 in
/-- Every fixed piece without a mark is checked once. -/
theorem unmarked_fixed {s : String} (h : s ∈ unmarkedTexts) : Unmarked s := by
  have hall : unmarkedTexts.all (fun s => !s.toList.contains '?') = true := by decide
  have hs := List.all_eq_true.1 hall s h
  simpa [Unmarked] using hs

theorem unmarked_of_name_chars {q : String}
    (h : ∀ c ∈ q.toList, c = '`' ∨ Name.isNameChar c = true) : Unmarked q := by
  intro hq
  rcases h '?' hq with h | h
  · exact absurd h (by decide)
  · exact absurd h (by decide)

theorem quote_unmarked {name q : String} (h : Name.quote name = .ok q) : Unmarked q :=
  unmarked_of_name_chars (quote_chars h)

theorem quoteColumns_unmarked {names qs : List String} (h : Name.quoteColumns names = .ok qs) :
    ∀ q ∈ qs, Unmarked q := by
  intro q hq
  obtain ⟨name, -, hname⟩ := (mapM_eq_ok h).2 q hq
  exact unmarked_of_name_chars (quoteColumn_chars hname)

/-- `(?, …, ?)`: the placeholders of one row of `w` values. -/
def rowMarks (w : Nat) : String := "(" ++ ", ".intercalate (List.replicate w "?") ++ ")"

/-- `c₁ = ?, …, cₙ = ?`: one placeholder for each column set. -/
def setMarks (cs : List String) : String := ", ".intercalate (cs.map (· ++ " = ?"))

theorem count_rowMarks (w : Nat) : (rowMarks w).toList.count '?' = w := by
  rw [rowMarks, String.toList_append, String.toList_append, List.count_append, List.count_append,
    count_intercalate (unmarked_fixed (by simp [unmarkedTexts]))]
  simp

theorem count_setMarks {cs : List String} (hcs : ∀ c ∈ cs, Unmarked c) :
    (setMarks cs).toList.count '?' = cs.length := by
  rw [setMarks, count_intercalate (unmarked_fixed (by simp [unmarkedTexts])), List.map_map]
  -- each assignment holds its one mark
  have hone : ∀ c ∈ cs, ((fun t : String => t.toList.count '?') ∘ (· ++ " = ?")) c = 1 := by
    intro c hc
    simp [count_of_unmarked (hcs c hc)]
  rw [List.map_congr_left hone]
  simp

/-- The `WHERE` text of a clause holds the clause's marks: a clause left out is blank. -/
theorem count_whereSql (c : BoundClause) :
    c.whereSql.toList.count '?' = c.placeholderCount := by
  unfold BoundClause.whereSql BoundClause.placeholderCount
  split
  · rename_i hblank
    have hmark : '?' ∉ c.text.toList := fun h =>
      absurd (List.all_eq_true.1 hblank '?' h) (by decide)
    simp [List.count_eq_zero.2 hmark]
  · simp

theorem whereSql_equals (key : String) (v : Datum) :
    (BoundClause.equals key v).whereSql = " WHERE " ++ key ++ " = ?" := by
  have hfull : (BoundClause.equals key v).isEmpty = false := by
    rw [Bool.eq_false_iff]
    intro h
    have hmark := List.all_eq_true.1 h '?' (by simp [BoundClause.equals])
    exact absurd hmark (by decide)
  rw [BoundClause.whereSql, hfull, if_neg Bool.false_ne_true]
  simp only [BoundClause.equals, String.append_assoc]

/-! ## Where each statement puts its parameters -/

/-- A row fitted to `w` columns: its first `w` values with their stand-in words replaced. -/
def fitted (clock : Stamp) (w : Nat) (row : Row) : Row := (row.take w).map (Datum.normalize clock)

theorem length_fitted {clock : Stamp} {w : Nat} {row : Row} (h : w ≤ row.length) :
    (fitted clock w row).length = w := by
  simp [fitted, h]

/-- A statement with no placeholder and no parameter. -/
def Bare (sql : String) (params : List Datum) : Prop := Unmarked sql ∧ params = []

/-- A statement with one placeholder, bound to `v`. -/
def BindsOne (v : Datum) (sql : String) (params : List Datum) : Prop :=
  ∃ head tail, Unmarked head ∧ Unmarked tail ∧ sql = head ++ "?" ++ tail ∧ params = [v]

/-- A statement that binds the filter's parameters, all of whose placeholders stand in the
filter's `WHERE` text at the end. -/
def FilterPlaced (clock : Stamp) (filter : RowFilter) (sql : String) (params : List Datum) :
    Prop :=
  ∃ head clause, Unmarked head ∧ BoundClause.ofFilter clock filter = .ok clause ∧
    sql = head ++ clause.whereSql ∧ params = clause.params

/-- An insert of rows fitted to `w` columns: a group of `w` placeholders for each row, bound to
the fitted rows one after the other. -/
def InsertPlaced (clock : Stamp) (rows : List Row) (sql : String) (params : List Datum) : Prop :=
  ∃ head w, Unmarked head ∧ (∀ row ∈ rows, w ≤ row.length) ∧
    sql = head ++ ", ".intercalate (rows.map fun _ => rowMarks w) ∧
    params = (rows.map (fitted clock w)).flatten

/-- An update of the columns `cs`: one placeholder for each column set, bound to the values
fitted to the columns, then the filter's. -/
def UpdatePlaced (clock : Stamp) (values : Row) (filter : RowFilter) (sql : String)
    (params : List Datum) : Prop :=
  ∃ head cs clause, Unmarked head ∧ (∀ c ∈ cs, Unmarked c) ∧ cs.length ≤ values.length ∧
    BoundClause.ofFilter clock filter = .ok clause ∧
    sql = head ++ setMarks cs ++ clause.whereSql ∧
    params = fitted clock cs.length values ++ clause.params

/-- The statements of one row of an upsert over the columns `cs`, whose key is the first of the
row's fitted values: the check of the key, the update by the key, or the insert of the row. -/
def UpsertPlaced (clock : Stamp) (row : Row) (sql : String) (params : List Datum) : Prop :=
  ∃ head cs, Unmarked head ∧ (∀ c ∈ cs, Unmarked c) ∧ cs.length ≤ row.length ∧
    ((sql = head ++ "?" ∧ params = [(fitted clock cs.length row).headD .null]) ∨
      (sql = head ++ setMarks cs ++ " WHERE " ++ cs.headD "" ++ " = ?" ∧
        params = fitted clock cs.length row ++ [(fitted clock cs.length row).headD .null]) ∨
      (sql = head ++ rowMarks cs.length ∧ params = fitted clock cs.length row))

/-! ### Each shape has one placeholder for each parameter -/

section Counts

variable {clock : Stamp} {sql : String} {params : List Datum}

theorem Bare.count (h : Bare sql params) : sql.toList.count '?' = params.length := by
  rw [count_of_unmarked h.1, h.2, List.length_nil]

theorem BindsOne.count {v : Datum} (h : BindsOne v sql params) :
    sql.toList.count '?' = params.length := by
  obtain ⟨head, tail, hhead, htail, rfl, rfl⟩ := h
  simp [count_of_unmarked hhead, count_of_unmarked htail]

theorem FilterPlaced.count {filter : RowFilter} (h : FilterPlaced clock filter sql params) :
    sql.toList.count '?' = params.length := by
  obtain ⟨head, clause, hhead, hclause, rfl, rfl⟩ := h
  rw [String.toList_append, List.count_append, count_of_unmarked hhead, count_whereSql,
    (BoundClause.ofFilter_spaced hclause).2, Nat.zero_add]

theorem InsertPlaced.count {rows : List Row} (h : InsertPlaced clock rows sql params) :
    sql.toList.count '?' = params.length := by
  obtain ⟨head, w, hhead, hw, rfl, rfl⟩ := h
  rw [String.toList_append, List.count_append, count_of_unmarked hhead, Nat.zero_add,
    count_intercalate (unmarked_fixed (by simp [unmarkedTexts])), List.length_flatten,
    List.map_map, List.map_map]
  -- each row's group holds `w` marks, and each fitted row has `w` values
  congr 1
  refine List.map_congr_left fun row hrow => ?_
  simp only [Function.comp_apply, count_rowMarks, length_fitted (hw row hrow)]

theorem UpdatePlaced.count {values : Row} {filter : RowFilter}
    (h : UpdatePlaced clock values filter sql params) : sql.toList.count '?' = params.length := by
  obtain ⟨head, cs, clause, hhead, hcs, hw, hclause, rfl, rfl⟩ := h
  simp only [String.toList_append, List.count_append, count_of_unmarked hhead, count_setMarks hcs,
    count_whereSql, (BoundClause.ofFilter_spaced hclause).2, List.length_append, length_fitted hw,
    Nat.zero_add]

theorem UpsertPlaced.count {row : Row} (h : UpsertPlaced clock row sql params) :
    sql.toList.count '?' = params.length := by
  obtain ⟨head, cs, hhead, hcs, hw, hshape⟩ := h
  have hkey : Unmarked (cs.headD "") := by
    cases cs with
    | nil => simp [Unmarked]
    | cons c _ => exact hcs c (by simp)
  generalize cs.headD "" = key at hkey hshape
  rcases hshape with ⟨rfl, rfl⟩ | ⟨rfl, rfl⟩ | ⟨rfl, rfl⟩
  · simp [count_of_unmarked hhead]
  · simp [count_of_unmarked hhead, count_of_unmarked hkey, count_setMarks hcs, length_fitted hw]
  · simp [count_of_unmarked hhead, count_rowMarks, length_fitted hw]

end Counts

/-! ## The statement builders -/

section Builders

open Query

variable {P : Request → Prop}

theorem sat_quoted_unmarked (name : String) : Sat P Unmarked (quoted name) :=
  sat_guard fun _ h => quote_unmarked h

theorem sat_boundClause {clock : Stamp} {filter : RowFilter} :
    Sat P (fun c => BoundClause.ofFilter clock filter = .ok c)
      (guard (BoundClause.ofFilter clock filter)) :=
  sat_guard fun _ h => h

theorem sat_fetch_bare {sql : String} (h : Unmarked sql) :
    Sat (Sends Bare) (fun _ => True) (fetch sql []) :=
  sat_fetch (sends_fetch.2 ⟨h, rfl⟩)

theorem sat_execute_bare {sql : String} (h : Unmarked sql) :
    Sat (Sends Bare) (fun _ => True) (execute sql []) :=
  sat_execute (sends_execute.2 ⟨h, rfl⟩)

/-- A builder's condition on its statements, weakened. -/
theorem sat_sends_mono {F G : String → List Datum → Prop} {α : Type} {Q : α → Prop} {x : Query α}
    (h : Sat (Sends F) Q x) (hFG : ∀ sql params, F sql params → G sql params) :
    Sat (Sends G) Q x :=
  h.mono (fun _ hr p hp => hFG _ _ (hr p hp)) fun _ hq => hq

/-- A query run on every item of a list, where each run succeeds only with its item's image
under `g`, succeeds only with the images of all the items. -/
theorem sat_mapM_eq {α β : Type} {f : α → Query β} {g : α → β} {R : α → Prop} (l : List α)
    (hf : ∀ a ∈ l, Sat P (fun b => R a ∧ b = g a) (f a)) :
    Sat P (fun bs => (∀ a ∈ l, R a) ∧ bs = l.map g) (l.mapM f) := by
  induction l with
  | nil => exact sat_pure ⟨by simp, rfl⟩
  | cons a l ih =>
    rw [List.mapM_cons]
    refine (hf a (by simp)).bind fun b hb => ?_
    refine (ih fun a' ha' => hf a' (by simp [ha'])).bind fun bs hbs => ?_
    refine sat_pure ⟨?_, by rw [hb.2, hbs.2, List.map_cons]⟩
    intro a' ha'
    rcases List.mem_cons.1 ha' with rfl | ha'
    · exact hb.1
    · exact hbs.1 a' ha'

/-! ### Schema statements -/

theorem sat_serverVersion_bare : Sat (Sends Bare) (fun _ => True) serverVersion := by
  unfold serverVersion
  refine (sat_fetch_bare (unmarked_fixed (by simp [unmarkedTexts]))).bind fun rows _ => ?_
  dsimp only
  split
  · exact (sat_ask (sends_of_poolText rfl)).bind fun _ _ => sat_pure trivial
  · exact sat_fail _

theorem sat_tableNames_bare : Sat (Sends Bare) (fun _ => True) tableNames :=
  (sat_fetch_bare (unmarked_fixed (by simp [unmarkedTexts]))).bind fun _ _ => sat_pure trivial

theorem sat_describe_bare (table : String) : Sat (Sends Bare) (fun _ => True) (describe table) :=
  (sat_quoted_unmarked table).bind fun _ hq =>
    (sat_fetch_bare (unmarked_append.2 ⟨unmarked_fixed (by simp [unmarkedTexts]), hq⟩)).bind
      fun _ _ => sat_pure trivial

theorem sat_columnNames_bare (table : String) :
    Sat (Sends Bare) (fun _ => True) (columnNames table) :=
  (sat_describe_bare table).bind fun _ _ => sat_pure trivial

theorem sat_triggers_bare : Sat (Sends Bare) (fun _ => True) triggers :=
  (sat_fetch_bare (unmarked_fixed (by simp [unmarkedTexts]))).bind fun _ _ => sat_pure trivial

theorem sat_trigger_bare (name : String) (database : Option String) :
    Sat (Sends Bare) (fun _ => True) (trigger name database) := by
  unfold trigger
  refine (sat_quoted_unmarked name).bind fun q hq => ?_
  -- whichever the target, reading its creation text sends one statement without marks
  have hread : ∀ target, Unmarked target → ∀ k : Fetched → Query (Option String),
      (∀ rows, Sat (Sends Bare) (fun _ => True) (k rows)) →
      Sat (Sends Bare) (fun _ => True) (fetch ("SHOW CREATE TRIGGER " ++ target) [] >>= k) :=
    fun target htarget k hk =>
      (sat_fetch_bare (unmarked_append.2 ⟨unmarked_fixed (by simp [unmarkedTexts]), htarget⟩)).bind
        fun rows _ => hk rows
  dsimp only
  cases database with
  | some db =>
    refine (sat_quoted_unmarked db).bind fun d hd =>
      (sat_pure (Q := Unmarked) ?_).bind fun target ht => ?_
    · simp only [unmarked_append]
      exact ⟨⟨hd, unmarked_fixed (by simp [unmarkedTexts])⟩, hq⟩
    · exact hread target ht _ fun _ => sat_pure trivial
  | none =>
    exact (sat_pure (Q := Unmarked) hq).bind fun target ht =>
      hread target ht _ fun _ => sat_pure trivial

theorem sat_triggerNames_none : Sat (Sends Bare) (fun _ => True) (triggerNames none) :=
  (sat_fetch_bare (unmarked_fixed (by simp [unmarkedTexts]))).bind fun _ _ => sat_pure trivial

theorem sat_triggerNames_some (db : String) :
    Sat (Sends (BindsOne (.text db))) (fun _ => True) (triggerNames (some db)) := by
  unfold triggerNames
  refine (sat_quoted_unmarked db).bind fun _ _ => (sat_fetch (sends_fetch.2
    ⟨"SELECT TRIGGER_NAME FROM information_schema.triggers WHERE TRIGGER_SCHEMA = ",
      " ORDER BY TRIGGER_NAME", unmarked_fixed (by simp [unmarkedTexts]),
      unmarked_fixed (by simp [unmarkedTexts]), by simp, rfl⟩)).bind fun _ _ => sat_pure trivial

theorem unmarked_of_isPlain {kind : String} (h : ColumnType.isPlain kind = true) : Unmarked kind := by
  simp only [ColumnType.isPlain, Bool.and_eq_true, List.all_eq_true] at h
  exact fun hq => absurd (h.2 '?' hq) (by decide)

theorem unmarked_forOldServer {kind : String} (h : Unmarked kind) :
    Unmarked (ColumnType.forOldServer kind) := by
  intro hq
  rw [ColumnType.forOldServer, String.toList_ofList] at hq
  rcases mem_dropDefaults hq with hq | hq
  · exact h hq
  · exact unmarked_fixed (s := "NULL") (by simp [unmarkedTexts]) hq

theorem sat_columnDefinition_unmarked (oldServer : Bool) (column : String × String) :
    Sat P Unmarked (columnDefinition oldServer column) := by
  unfold columnDefinition
  refine (sat_guard fun _ h => unmarked_of_name_chars (quoteColumn_chars h)).bind
    fun name hname => ?_
  dsimp only
  split
  · -- a type outside the plain alphabet is refused
    exact (sat_fail (Q := fun _ => False) _).bind fun _ h => h.elim
  · rename_i hplain
    have hkind : Unmarked (Text.trim column.2) := unmarked_of_isPlain (by simpa using hplain)
    refine sat_pure (unmarked_append.2
      ⟨unmarked_append.2 ⟨hname, unmarked_fixed (by simp [unmarkedTexts])⟩, ?_⟩)
    split
    · exact unmarked_forOldServer hkind
    · exact hkind

theorem sat_createTable_bare (table : String) (columns : List (String × String)) :
    Sat (Sends Bare) (fun _ => True) (createTable table columns) := by
  unfold createTable
  refine (sat_quoted_unmarked table).bind fun q hq => ?_
  dsimp only
  split
  · exact (sat_fail (Q := fun _ => False) _).bind fun _ h => h.elim
  · refine (sat_ask (sends_of_poolText rfl)).bind fun version _ => ?_
    refine (sat_mapM columns fun c _ => sat_columnDefinition_unmarked _ c).bind fun defs hdefs => ?_
    refine sat_execute_bare ?_
    simp only [unmarked_append]
    exact ⟨⟨⟨⟨unmarked_fixed (by simp [unmarkedTexts]), hq⟩, unmarked_fixed (by simp [unmarkedTexts])⟩,
      unmarked_intercalate (unmarked_fixed (by simp [unmarkedTexts])) hdefs⟩,
      unmarked_fixed (by simp [unmarkedTexts])⟩

theorem sat_removeTable_bare (table : String) :
    Sat (Sends Bare) (fun _ => True) (removeTable table) :=
  (sat_quoted_unmarked table).bind fun _ hq =>
    sat_execute_bare (unmarked_append.2 ⟨unmarked_fixed (by simp [unmarkedTexts]), hq⟩)

theorem sat_removeTrigger_bare (name : String) :
    Sat (Sends Bare) (fun _ => True) (removeTrigger name) :=
  (sat_quoted_unmarked name).bind fun _ hq =>
    sat_execute_bare (unmarked_append.2 ⟨unmarked_fixed (by simp [unmarkedTexts]), hq⟩)

/-! ### Row reads and deletes -/

theorem sat_selectList_unmarked (columns : Projection)
    (hcol : ∀ e, columns = .expression e → Unmarked (Text.trim e)) :
    Sat P Unmarked (selectList columns) := by
  unfold selectList
  split
  · exact sat_pure (unmarked_fixed (by simp [unmarkedTexts]))
  · split
    · rename_i e _
      exact (sat_guard (Q := fun _ => True) fun _ _ => trivial).bind fun _ _ =>
        sat_pure (hcol e rfl)
    · exact (sat_guard fun _ h => quoteColumns_unmarked h).bind fun _ hqs =>
        sat_pure (unmarked_intercalate (unmarked_fixed (by simp [unmarkedTexts])) hqs)

theorem sat_rows_placed (clock : Stamp) (table : String) (columns : Projection)
    (filter : RowFilter) (asRecords : Bool)
    (hcol : ∀ e, columns = .expression e → Unmarked (Text.trim e)) :
    Sat (Sends (FilterPlaced clock filter)) (fun _ => True)
      (rows clock table columns filter asRecords) := by
  unfold rows
  refine (sat_quoted_unmarked table).bind fun q hq => ?_
  refine (sat_selectList_unmarked columns hcol).bind fun sel hsel => ?_
  refine sat_boundClause.bind fun clause hclause => ?_
  refine (sat_fetch (sends_fetch.2 ⟨"SELECT " ++ sel ++ " FROM " ++ q, clause, ?_, hclause, rfl,
    rfl⟩)).bind fun _ _ => sat_pure trivial
  simp only [unmarked_append]
  exact ⟨⟨⟨unmarked_fixed (by simp [unmarkedTexts]), hsel⟩, unmarked_fixed (by simp [unmarkedTexts])⟩,
    hq⟩

theorem sat_size_placed (clock : Stamp) (table column : String) (filter : RowFilter) :
    Sat (Sends (FilterPlaced clock filter)) (fun _ => True) (size clock table column filter) := by
  unfold size
  refine (sat_quoted_unmarked table).bind fun q hq => ?_
  dsimp only
  -- the statement is the same whichever way the counted column is chosen
  refine sat_ite_bind (R := Unmarked) (sat_pure (unmarked_fixed (by simp [unmarkedTexts])))
    (sat_guard fun _ h => unmarked_of_name_chars (quoteColumn_chars h)) fun counted hcounted => ?_
  refine sat_boundClause.bind fun clause hclause => ?_
  refine (sat_fetch (sends_fetch.2 ⟨"SELECT COUNT(" ++ counted ++ ") FROM " ++ q, clause, ?_,
    hclause, rfl, rfl⟩)).bind fun _ _ => sat_pure trivial
  simp only [unmarked_append]
  exact ⟨⟨⟨unmarked_fixed (by simp [unmarkedTexts]), hcounted⟩,
    unmarked_fixed (by simp [unmarkedTexts])⟩, hq⟩

theorem sat_delete_placed (clock : Stamp) (table : String) (filter : RowFilter) :
    Sat (Sends (FilterPlaced clock filter)) (fun _ => True) (delete clock table filter) := by
  unfold delete
  refine (sat_quoted_unmarked table).bind fun q hq => ?_
  exact sat_boundClause.bind fun clause hclause => sat_execute (sends_execute.2
    ⟨"DELETE FROM " ++ q, clause, unmarked_append.2 ⟨unmarked_fixed (by simp [unmarkedTexts]), hq⟩,
      hclause, rfl, rfl⟩)

/-! ### Row writes -/

theorem sat_targetColumns_unmarked (table : String) (columns : Option (List String)) :
    Sat (Sends Bare) (fun cs => ∀ c ∈ cs, Unmarked c) (targetColumns table columns) := by
  unfold targetColumns
  -- the names come from the caller or from the table; either way only their quoted forms leave
  have htail : ∀ names : List String, Sat (Sends Bare) (fun cs => ∀ c ∈ cs, Unmarked c)
      (if names.isEmpty then
        (fail (.invalid ("table '" ++ table ++ "' has no columns")) : Query Unit) >>= fun _ =>
          guard (Name.quoteColumns names)
      else guard (Name.quoteColumns names)) := by
    intro names
    split
    · exact (sat_fail (Q := fun _ => False) _).bind fun _ h => h.elim
    · exact sat_guard fun _ h => quoteColumns_unmarked h
  dsimp only
  split
  · split
    · exact (sat_columnNames_bare table).bind fun names _ => htail names
    · exact (sat_pure (Q := fun _ => True) trivial).bind fun names _ => htail names
  · exact (sat_columnNames_bare table).bind fun names _ => htail names

theorem sat_fitRow_fitted (clock : Stamp) (table : String) (row : Row) (width : Nat) :
    Sat P (fun vs => width ≤ row.length ∧ vs = fitted clock width row)
      (fitRow clock table row width) := by
  unfold fitRow
  split
  · exact sat_fail _
  · rename_i hshort
    exact sat_pure ⟨Nat.le_of_not_lt hshort, rfl⟩

theorem sat_insertRows_placed {q : String} {cs : List String} (rows : List Row) (hq : Unmarked q)
    (hcs : ∀ c ∈ cs, Unmarked c) :
    Sat (Sends fun sql params => ∃ head, Unmarked head ∧
        sql = head ++ ", ".intercalate (rows.map fun _ => rowMarks cs.length) ∧
        params = rows.flatten)
      (fun _ => True) (insertRows q cs rows) := by
  unfold insertRows
  dsimp only
  refine sat_execute (sends_execute.2
    ⟨"INSERT INTO " ++ q ++ " (" ++ ", ".intercalate cs ++ ") VALUES ", ?_, ?_, rfl⟩)
  · simp only [unmarked_append]
    exact ⟨⟨⟨⟨unmarked_fixed (by simp [unmarkedTexts]), hq⟩, unmarked_fixed (by simp [unmarkedTexts])⟩,
      unmarked_intercalate (unmarked_fixed (by simp [unmarkedTexts])) hcs⟩,
      unmarked_fixed (by simp [unmarkedTexts])⟩
  · simp only [rowMarks, List.map_const']

theorem sat_insert_placed (clock : Stamp) (table : String) (rows : List Row)
    (columns : Option (List String)) :
    Sat (Sends fun sql params => Bare sql params ∨ InsertPlaced clock rows sql params)
      (fun _ => True) (insert clock table rows columns) := by
  unfold insert
  refine (sat_quoted_unmarked table).bind fun q hq => ?_
  refine (sat_sends_mono (sat_targetColumns_unmarked table columns) fun _ _ => .inl).bind
    fun cs hcs => ?_
  split
  · exact sat_pure trivial
  · refine (sat_mapM_eq rows fun r _ => sat_fitRow_fitted clock table r cs.length).bind
      fun fittedRows hfitted => ?_
    obtain ⟨hw, rfl⟩ := hfitted
    refine sat_sends_mono (sat_insertRows_placed _ hq hcs) fun sql params h => .inr ?_
    obtain ⟨head, hhead, hsql, hparams⟩ := h
    exact ⟨head, cs.length, hhead, hw, by rw [hsql, List.map_map]; rfl, hparams⟩

theorem sat_updateRows_placed {q : String} {cs : List String} (values : Row)
    (clause : BoundClause) (hq : Unmarked q) :
    Sat (Sends fun sql params => ∃ head, Unmarked head ∧
        sql = head ++ setMarks cs ++ clause.whereSql ∧ params = values ++ clause.params)
      (fun _ => True) (updateRows q cs values clause) := by
  unfold updateRows
  refine sat_execute (sends_execute.2 ⟨"UPDATE " ++ q ++ " SET ", ?_, rfl, rfl⟩)
  simp only [unmarked_append]
  exact ⟨⟨unmarked_fixed (by simp [unmarkedTexts]), hq⟩, unmarked_fixed (by simp [unmarkedTexts])⟩

theorem sat_update_placed (clock : Stamp) (table : String) (values : Row)
    (columns : Option (List String)) (filter : RowFilter) :
    Sat (Sends fun sql params => Bare sql params ∨ UpdatePlaced clock values filter sql params)
      (fun _ => True) (update clock table values columns filter) := by
  unfold update
  refine (sat_quoted_unmarked table).bind fun q hq => ?_
  refine (sat_sends_mono (sat_targetColumns_unmarked table columns) fun _ _ => .inl).bind
    fun cs hcs => ?_
  refine (sat_fitRow_fitted clock table values cs.length).bind fun vs hvs => ?_
  obtain ⟨hw, rfl⟩ := hvs
  refine sat_boundClause.bind fun clause hclause => ?_
  refine sat_sends_mono (sat_updateRows_placed _ clause hq) fun sql params h => .inr ?_
  obtain ⟨head, hhead, hsql, hparams⟩ := h
  exact ⟨head, cs, clause, hhead, hcs, hw, hclause, hsql, hparams⟩

theorem sat_upsertRow_placed (clock : Stamp) (table q : String) (cs : List String) (row : Row)
    (hq : Unmarked q) (hcs : ∀ c ∈ cs, Unmarked c) :
    Sat (Sends (UpsertPlaced clock row)) (fun _ => True) (upsertRow clock table q cs row) := by
  unfold upsertRow
  split
  · exact sat_pure trivial
  · refine (sat_fitRow_fitted clock table row cs.length).bind fun values hvalues => ?_
    obtain ⟨hw, rfl⟩ := hvalues
    -- the key column is the first quoted column, or empty when there is none
    have hkey : Unmarked (cs.headD "") := by
      cases cs with
      | nil => simp [Unmarked]
      | cons c _ => exact hcs c (by simp)
    have hcheck : Unmarked ("SELECT COUNT(*) FROM " ++ q ++ " WHERE " ++ cs.headD "" ++ " = ") := by
      simp only [unmarked_append]
      exact ⟨⟨⟨⟨unmarked_fixed (by simp [unmarkedTexts]), hq⟩,
        unmarked_fixed (by simp [unmarkedTexts])⟩, hkey⟩, unmarked_fixed (by simp [unmarkedTexts])⟩
    refine (sat_fetch (sends_fetch.2 ⟨_, cs, hcheck, hcs, hw,
      .inl ⟨by simp [String.append_assoc], rfl⟩⟩)).bind fun existing _ => ?_
    -- the count decides between the update by the key and the insert of the row
    split
    · refine sat_sends_mono (sat_updateRows_placed _ _ hq) fun sql params h => ?_
      obtain ⟨head, hhead, rfl, rfl⟩ := h
      refine ⟨head, cs, hhead, hcs, hw, .inr (.inl ⟨?_, rfl⟩)⟩
      rw [whereSql_equals]
      simp only [String.append_assoc]
    · refine sat_sends_mono (sat_insertRows_placed [_] hq hcs) fun sql params h => ?_
      obtain ⟨head, hhead, rfl, rfl⟩ := h
      exact ⟨head, cs, hhead, hcs, hw, .inr (.inr ⟨by simp, by simp⟩)⟩

theorem sat_upsert_placed (clock : Stamp) (table : String) (rows : List Row)
    (columns : Option (List String)) :
    Sat (Sends fun sql params => Bare sql params ∨ ∃ row ∈ rows, UpsertPlaced clock row sql params)
      (fun _ => True) (upsert clock table rows columns) := by
  unfold upsert
  refine (sat_quoted_unmarked table).bind fun q hq => ?_
  refine (sat_sends_mono (sat_targetColumns_unmarked table columns) fun _ _ => .inl).bind
    fun cs hcs => ?_
  exact sat_foldlM rows trivial fun _ _ row hrow =>
    (sat_sends_mono (sat_upsertRow_placed clock table q cs row hq hcs) fun _ _ h =>
      .inr ⟨row, hrow, h⟩).bind fun _ _ => sat_pure trivial

end Builders

end Statements

/-! ## The front -/

namespace Front

open Query Statements

/-- Where the statements of an operation put their parameters.  A write of rows may first look
up the table's columns, which binds nothing. -/
def Placed (clock : Stamp) : Operation → String → List Datum → Prop
  | .triggerNames (some db) _ => BindsOne (.text db)
  | .rows _ _ filter _ _ => FilterPlaced clock filter
  | .size _ _ filter _ => FilterPlaced clock filter
  | .delete _ filter => FilterPlaced clock filter
  | .insert _ rows _ => fun sql params => Bare sql params ∨ InsertPlaced clock rows sql params
  | .update _ values _ filter => fun sql params =>
    Bare sql params ∨ UpdatePlaced clock values filter sql params
  | .upsert _ rows _ => fun sql params =>
    Bare sql params ∨ ∃ row ∈ rows, UpsertPlaced clock row sql params
  | _ => Bare

/-- Each statement placed as its operation means has one mark for each parameter. -/
theorem Placed.count {clock : Stamp} {op : Operation} {sql : String} {params : List Datum}
    (h : Placed clock op sql params) : sql.toList.count '?' = params.length := by
  cases op with
  | triggerNames database ttl =>
    cases database with
    | some db => exact BindsOne.count h
    | none => exact Bare.count h
  | rows => exact FilterPlaced.count h
  | size => exact FilterPlaced.count h
  | delete => exact FilterPlaced.count h
  | insert => exact h.elim Bare.count InsertPlaced.count
  | update => exact h.elim Bare.count UpdatePlaced.count
  | upsert =>
    rcases h with h | ⟨row, -, h⟩
    · exact h.count
    · exact h.count
  | _ => exact Bare.count h

theorem sat_placed (clock : Stamp) (binding : Option Binding) (op : Operation)
    (hop : ∀ name table timing body, op ≠ .installTrigger name table timing body)
    (hcol : ∀ table e filter asRecords ttl, op = .rows table (.expression e) filter asRecords ttl →
      Unmarked (Text.trim e)) :
    Sat (Sends (Placed clock op)) (fun _ => True) (perform clock binding op) := by
  have hP : ∀ r, r.poolText? = none → Sends (Placed clock op) r := fun _ h => sends_of_poolText h
  -- the cache adds no statement, so each operation sends what its builder sends
  have read : ∀ {α β : Type} {Q : α → Prop} {x : Query α} (key : Binding → CacheKey) ttl payload
      (g : α → β), Sat (Sends (Placed clock op)) Q x →
      Sat (Sends (Placed clock op)) (fun _ => True) (g <$> cachedRead binding key ttl payload x) :=
    fun key ttl payload g h => (sat_cachedRead hP binding key ttl payload h).map fun _ _ => trivial
  have write : ∀ {α β : Type} {x : Query α} patterns (g : α → β),
      Sat (Sends (Placed clock op)) (fun _ => True) x →
      Sat (Sends (Placed clock op)) (fun _ => True) (g <$> cachedWrite binding patterns x) :=
    fun patterns g h => (sat_cachedWrite hP binding patterns h).map fun _ _ => trivial
  cases op with
  | serverVersion ttl =>
    exact (sat_cachedRead hP binding _ ttl _ sat_serverVersion_bare).bind fun _ _ =>
      (sat_ask (hP _ rfl)).bind fun _ _ => sat_pure trivial
  | tableNames ttl => exact read _ ttl _ _ sat_tableNames_bare
  | columnNames table ttl => exact read _ ttl _ _ (sat_columnNames_bare table)
  | describe table ttl => exact read _ ttl _ _ (sat_describe_bare table)
  | triggers ttl => exact read _ ttl _ _ sat_triggers_bare
  | trigger name database ttl => exact read _ ttl _ _ (sat_trigger_bare name database)
  | triggerNames database ttl =>
    cases database with
    | some db => exact read _ ttl _ _ (sat_triggerNames_some db)
    | none => exact read _ ttl _ _ sat_triggerNames_none
  | createTable table columns => exact write _ _ (sat_createTable_bare table columns)
  | removeTable table => exact write _ _ (sat_removeTable_bare table)
  | installTrigger name table timing body => exact absurd rfl (hop name table timing body)
  | removeTrigger name => exact write _ _ (sat_removeTrigger_bare name)
  | rows table columns filter asRecords ttl =>
    exact read _ ttl _ _ (sat_rows_placed clock table columns filter asRecords fun e he =>
      hcol table e filter asRecords ttl (by rw [he]))
  | size table column filter ttl => exact read _ ttl _ _ (sat_size_placed clock table column filter)
  | insert table rows columns => exact write _ _ (sat_insert_placed clock table rows columns)
  | update table values columns filter =>
    exact write _ _ (sat_update_placed clock table values columns filter)
  | upsert table rows columns => exact write _ _ (sat_upsert_placed clock table rows columns)
  | delete table filter => exact write _ _ (sat_delete_placed clock table filter)

/-- Whatever the database and the store answer, every statement an operation other than a
trigger installation sends to the pool has one placeholder outside string literals for each
parameter, and binds them as the operation means; a row read's select-list expression must
bring no mark and no quote of its own. -/
theorem perform_binds_placeholders {σ : Type} (clock : Stamp) (binding : Option Binding)
    (op : Operation) (hop : ∀ name table timing body, op ≠ .installTrigger name table timing body)
    (hexpr : ∀ table e filter asRecords ttl, op = .rows table (.expression e) filter asRecords ttl →
      '?' ∉ (Text.trim e).toList ∧ '\'' ∉ (Text.trim e).toList ∧ '"' ∉ (Text.trim e).toList)
    (answer : (r : Request) → σ → r.Answer × σ) (s : σ) :
    ∀ r ∈ Talk.requests answer (perform clock binding op).run s, ∀ p ∈ r.pool?,
      placeholders p.1 = p.2.length ∧ Placed clock op p.1 p.2 := by
  intro r hr p hp
  have hplaced : Placed clock op p.1 p.2 :=
    (sat_placed clock binding op hop fun table e filter asRecords ttl h =>
      (hexpr table e filter asRecords ttl h).1).requests answer s r hr p hp
  -- no statement holds a quote, so every mark stands outside a literal
  have hquotes : '\'' ∉ p.1.toList ∧ '"' ∉ p.1.toList := by
    rcases (sat_perform clock binding op hop).requests answer s r hr p.1
        (Request.poolText?_of_mem_pool? hp) with
      hinert | ⟨table, columns, filter, asRecords, ttl, rfl, e, rest, rfl, -, hsql, hrest⟩
    · exact quote_free_of_inert hinert
    · obtain ⟨-, he₁, he₂⟩ := hexpr table e filter asRecords ttl rfl
      obtain ⟨hrest₁, hrest₂⟩ := quote_free_of_inert hrest
      rw [hsql]
      simp only [String.toList_append, List.mem_append, not_or]
      exact ⟨⟨⟨⟨by simp, he₁⟩, by simp⟩, hrest₁⟩, ⟨⟨⟨by simp, he₂⟩, by simp⟩, hrest₂⟩⟩
  exact ⟨by rw [placeholders_of_quote_free hquotes, hplaced.count], hplaced⟩

/-- A row read whose expression has no mark of its own binds its filter's parameter. -/
theorem perform_binds_placeholders_of_counted_read :
    (∀ name table timing body, Operation.rows "users" (.expression "COUNT(id)")
      (.clause "age > 18") false none ≠ .installTrigger name table timing body) ∧
    (∀ table e filter asRecords ttl, Operation.rows "users" (.expression "COUNT(id)")
      (.clause "age > 18") false none = .rows table (.expression e) filter asRecords ttl →
      '?' ∉ (Text.trim e).toList ∧ '\'' ∉ (Text.trim e).toList ∧ '"' ∉ (Text.trim e).toList) ∧
    ∀ r ∈ Talk.requests Stage.answer (perform ⟨2024, 1, 1, 0, 0, 0, 0⟩ none
        (.rows "users" (.expression "COUNT(id)") (.clause "age > 18") false none)).run {},
      ∀ p ∈ r.pool?, placeholders p.1 = p.2.length ∧ Placed ⟨2024, 1, 1, 0, 0, 0, 0⟩
        (.rows "users" (.expression "COUNT(id)") (.clause "age > 18") false none) p.1 p.2 :=
  have hop : ∀ name table timing body, Operation.rows "users" (.expression "COUNT(id)")
      (.clause "age > 18") false none ≠ .installTrigger name table timing body :=
    fun _ _ _ _ h => Operation.noConfusion h
  have hexpr : ∀ table e filter asRecords ttl, Operation.rows "users" (.expression "COUNT(id)")
      (.clause "age > 18") false none = .rows table (.expression e) filter asRecords ttl →
      '?' ∉ (Text.trim e).toList ∧ '\'' ∉ (Text.trim e).toList ∧ '"' ∉ (Text.trim e).toList := by
    intro table e filter asRecords ttl h
    cases h
    decide
  ⟨hop, hexpr, perform_binds_placeholders _ none _ hop hexpr Stage.answer {}⟩

/-- Caller text written into a statement as it is brings its own marks, with no parameter to
bind them: a select-list expression `?`, which the screen passes, and a trigger body. -/
theorem verbatim_marks_unbound :
    (Talk.requests Stage.answer (perform ⟨2024, 1, 1, 0, 0, 0, 0⟩ none
        (.rows "users" (.expression "?") .none false none)).run {}).map Request.pool? =
      [some ("SELECT ? FROM `users`", [])] ∧
    placeholders "SELECT ? FROM `users`" = 1 ∧
    (Talk.requests Stage.answer (perform ⟨2024, 1, 1, 0, 0, 0, 0⟩ none
        (.installTrigger "t" "users" "AFTER INSERT" "SET NEW.a = ?")).run {}).map Request.pool? =
      [some ("DROP TRIGGER IF EXISTS `t`", []),
        some ("CREATE TRIGGER `t` AFTER INSERT ON `users` FOR EACH ROW SET NEW.a = ?", [])] ∧
    placeholders "CREATE TRIGGER `t` AFTER INSERT ON `users` FOR EACH ROW SET NEW.a = ?" = 1 :=
  ⟨by decide +kernel, by decide, by decide +kernel, by decide⟩

end Front

end QueryShield
