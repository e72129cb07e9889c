import Mathlib
import QueryShield.Query.Front
import QueryShield.Rehearsal.Stage
import QueryShield.Proofs.Conversation
import QueryShield.Proofs.Clause.Grammar

/-!
# What the query front sends to the database

Every statement an operation of the front passes to the pool is built from fixed text, names
in backticks, column types of the plain alphabet, bound clause text and placeholders; values
travel as parameters.  None of these holds a character that quotes, ends a statement, starts
a comment or escapes (`Statements.Inert`).

There are two exceptions, both by design.  Installing a trigger sends the cleaned trigger
definition, whose body is SQL.  And a row read whose projection is an expression writes the
trimmed expression into the select list once the screen has passed it: the screen reads
neither an e-mail address (which may start with any column name and `=`), nor a number, nor a
base64 data URI, so such an expression may hold `;`, `#` or `/*`.
`Front.rows_expression_reaches_pool` shows one; `Front.perform_pool_statements` states what holds of every other statement.

The proof is a Hoare-style one over conversations (`Query.Sat`): each statement builder is
shown to make only inert pool requests and no store request (`Statements.Direct`), the cache
only adds store requests, and the front is assembled from the builders.
-/

namespace QueryShield

/-- The statement text of a request to the pool; none for the other requests. -/
def Request.poolText? : Request → Option String
  | .fetch sql _ => some sql
  | .execute sql _ => some sql
  | _ => none

/-- Whether a request is a command of the cache store. -/
def Request.isStore : Request → Bool
  | .storeGet _ | .storeSet .. | .storeScan _ | .storeDelete _ => true
  | _ => false

namespace Statements

open Text

/-! ## Inert text -/

/-- The characters that quote, end a statement, start a comment or escape. -/
def unsafeChars : List Char := ['\'', '"', ';', '#', '@', '\\', '-', '/']

/-- Text in which nothing quotes, ends a statement, starts a comment or escapes. -/
def Inert (s : String) : Prop := ∀ c ∈ s.toList, c ∉ unsafeChars

@[simp] theorem inert_append {a b : String} : Inert (a ++ b) ↔ Inert a ∧ Inert b := by
  simp only [Inert, String.toList_append, List.mem_append]
  constructor
  · intro h
    exact ⟨fun c hc => h c (.inl hc), fun c hc => h c (.inr hc)⟩
  · rintro ⟨ha, hb⟩ c (hc | hc)
    · exact ha c hc
    · exact hb c hc

theorem inert_intercalate {sep : String} {l : List String} (hsep : Inert sep)
    (hl : ∀ s ∈ l, Inert s) : Inert (sep.intercalate l) := by
  intro c hc
  rw [String.toList_intercalate] at hc
  rcases BoundClause.mem_of_mem_intercalate hc with hc | ⟨t, ht, hc⟩
  · exact hsep c hc
  · obtain ⟨s, hs, rfl⟩ := List.mem_map.1 ht
    exact hl s hs c hc

/-- Inertness checked character by character, the way fixed statement text is checked. -/
theorem inert_of_all {s : String} (h : s.toList.all (fun c => !unsafeChars.contains c) = true) :
    Inert s := by
  intro c hc hu
  have hall := List.all_eq_true.1 h c hc
  simp [hu] at hall

/-- The fixed pieces of text the statement builders write around names, types, clauses and
placeholders. -/
def fixedTexts : List String :=
  ["*", ", ", " ", ".", "(", ")", "?", "`", "NULL", "SELECT VERSION()", "SHOW TABLES", "DESCRIBE ",
    triggersOfCurrent, "SHOW CREATE TRIGGER ",
    "SELECT TRIGGER_NAME FROM information_schema.triggers WHERE TRIGGER_SCHEMA = ? ORDER BY TRIGGER_NAME",
    "SELECT TRIGGER_NAME FROM information_schema.triggers WHERE TRIGGER_SCHEMA = DATABASE() ORDER BY TRIGGER_NAME",
    "CREATE TABLE IF NOT EXISTS ", " (", ") ENGINE=InnoDB", "DROP TABLE IF EXISTS ",
    "DROP TRIGGER IF EXISTS ", "SELECT ", " FROM ", " WHERE ", " = ?", "SELECT COUNT(", ") FROM ",
    "INSERT INTO ", ") VALUES ", "UPDATE ", " SET ", "SELECT COUNT(*) FROM ",
    "DELETE FROM "]

set_option maxRecDepth 20000 in
/-- Every fixed piece is inert: one check over all of them. -/
theorem inert_fixed {s : String} (h : s ∈ fixedTexts) : Inert s :=
  inert_of_all (List.all_eq_true.1 (by decide :
    fixedTexts.all (fun s => s.toList.all fun c => !unsafeChars.contains c) = true) s h)

/-- A request to the pool whose statement satisfies `ok`; any other request. -/
def PoolOk (ok : String → Prop) (r : Request) : Prop := ∀ sql ∈ r.poolText?, ok sql

/-- A request of a statement builder: never a store command, and a pool request only with a
statement that satisfies `ok`. -/
def Direct (ok : String → Prop) (r : Request) : Prop := r.isStore = false ∧ PoolOk ok r

theorem poolOk_of_poolText {ok : String → Prop} {r : Request} (h : r.poolText? = none) :
    PoolOk ok r := by
  simp [PoolOk, h]

@[simp] theorem poolOk_fetch {ok : String → Prop} {sql : String} {params : List Datum} :
    PoolOk ok (.fetch sql params) ↔ ok sql := by
  simp [PoolOk, Request.poolText?]

@[simp] theorem poolOk_execute {ok : String → Prop} {sql : String} {params : List Datum} :
    PoolOk ok (.execute sql params) ↔ ok sql := by
  simp [PoolOk, Request.poolText?]

/-! ## Names, types and clauses -/

theorem nameChar_safe {c : Char} (h : Name.isNameChar c = true) : c ∉ unsafeChars := by
  simp only [Name.isNameChar, Bool.or_eq_true, Bool.and_eq_true, decide_eq_true_eq,
    beq_iff_eq] at h
  rcases h with (⟨hc, halnum⟩ | rfl) | rfl
  · exact Lex.ascii_forall (fun c => c.isAlphanum = true → c ∉ unsafeChars) (by decide) hc halnum
  · decide
  · decide

theorem checkAlphabet_ok {n : String} (h : Name.checkAlphabet n = .ok ()) :
    ∀ c ∈ n.toList, Name.isNameChar c = true := by
  unfold Name.checkAlphabet at h
  split at h
  · cases h
  · split at h
    · rename_i hall
      simpa using hall
    · cases h

/-- Every character of a name in backticks is a backtick or of the name alphabet. -/
theorem backticked_chars {n : String} (h : Name.checkAlphabet n = .ok ()) :
    ∀ c ∈ ("`" ++ n ++ "`").toList, c = '`' ∨ Name.isNameChar c = true := by
  intro c hc
  simp only [String.toList_append, List.mem_append] at hc
  rcases hc with (hc | hc) | hc
  · exact .inl (by simpa using hc)
  · exact .inr (checkAlphabet_ok h c hc)
  · exact .inl (by simpa using hc)

theorem quote_chars {name q : String} (h : Name.quote name = .ok q) :
    ∀ c ∈ q.toList, c = '`' ∨ Name.isNameChar c = true := by
  unfold Name.quote at h
  obtain ⟨u, halpha, h⟩ := exists_of_bind_eq_ok h
  obtain ⟨v, -, h⟩ := exists_of_bind_eq_ok h
  cases h
  exact backticked_chars halpha

theorem quoteColumn_chars {name q : String} (h : Name.quoteColumn name = .ok q) :
    ∀ c ∈ q.toList, c = '`' ∨ Name.isNameChar c = true := by
  unfold Name.quoteColumn at h
  obtain ⟨u, halpha, h⟩ := exists_of_bind_eq_ok h
  split at h
  · cases h
    exact backticked_chars halpha
  · obtain ⟨v, -, h⟩ := exists_of_bind_eq_ok h
    cases h
    exact backticked_chars halpha

theorem inert_of_name_chars {q : String} (h : ∀ c ∈ q.toList, c = '`' ∨ Name.isNameChar c = true) :
    Inert q := by
  intro c hc
  rcases h c hc with rfl | hname
  · decide
  · exact nameChar_safe hname

/-- A quoted name is inert. -/
theorem quote_inert {name q : String} (h : Name.quote name = .ok q) : Inert q :=
  inert_of_name_chars (quote_chars h)

/-- A quoted column name is inert. -/
theorem quoteColumn_inert {name q : String} (h : Name.quoteColumn name = .ok q) : Inert q :=
  inert_of_name_chars (quoteColumn_chars h)

theorem quoteColumns_inert {names qs : List String} (h : Name.quoteColumns names = .ok qs) :
    ∀ q ∈ qs, Inert q := by
  intro q hq
  obtain ⟨name, -, hname⟩ := (mapM_eq_ok h).2 q hq
  exact quoteColumn_inert hname

theorem isTypeChar_safe {c : Char} (h : ColumnType.isTypeChar c = true) : c ∉ unsafeChars := by
  simp only [ColumnType.isTypeChar, Bool.or_eq_true, Bool.and_eq_true, decide_eq_true_eq,
    beq_iff_eq] at h
  rcases h with (((((⟨hc, halnum⟩ | rfl) | rfl) | rfl) | rfl) | rfl) | rfl
  · exact Lex.ascii_forall (fun c => c.isAlphanum = true → c ∉ unsafeChars) (by decide) hc halnum
  all_goals decide

/-- Replacing timestamp defaults writes only characters of the text and of `NULL`. -/
theorem mem_dropDefaults {afterWord : Bool} {t : List Char} {c : Char}
    (h : c ∈ ColumnType.dropDefaults afterWord t) : c ∈ t ∨ c ∈ "NULL".toList := by
  fun_induction ColumnType.dropDefaults afterWord t with
  | case1 => simp at h
  | case2 afterWord c' cs n _ ih =>
    rw [List.mem_append] at h
    rcases h with h | h
    · exact .inr h
    · rcases ih h with h | h
      · exact .inl (List.mem_of_mem_drop h)
      · exact .inr h
  | case3 afterWord c' cs _ ih =>
    rcases List.mem_cons.1 h with rfl | h
    · exact .inl (by simp)
    · rcases ih h with h | h
      · exact .inl (List.mem_cons_of_mem _ h)
      · exact .inr h

theorem inert_of_isPlain {kind : String} (h : ColumnType.isPlain kind = true) : Inert kind := by
  simp only [ColumnType.isPlain, Bool.and_eq_true, List.all_eq_true] at h
  exact fun c hc => isTypeChar_safe (h.2 c hc)

theorem inert_forOldServer {kind : String} (h : Inert kind) :
    Inert (ColumnType.forOldServer kind) := by
  intro c hc
  rw [ColumnType.forOldServer, String.toList_ofList] at hc
  rcases mem_dropDefaults hc with hc | hc
  · exact h c hc
  · exact inert_fixed (s := "NULL") (by simp [fixedTexts]) c hc

theorem ofFilter_inert {clock : Stamp} {filter : RowFilter} {c : BoundClause}
    (h : BoundClause.ofFilter clock filter = .ok c) : Inert c.text := by
  rcases (BoundClause.ofFilter_spaced h).1 with hempty | hs
  · simp [Inert, hempty]
  · exact fun ch hch => (hs.chars ch hch).not_forbidden

theorem whereSql_inert {c : BoundClause} (h : Inert c.text) : Inert c.whereSql := by
  unfold BoundClause.whereSql
  split
  · simp [Inert]
  · exact inert_append.2 ⟨inert_fixed (by simp [fixedTexts]), h⟩

theorem equals_inert {q : String} {v : Datum} (hq : Inert q) :
    Inert (BoundClause.equals q v).text :=
  inert_append.2 ⟨hq, inert_fixed (by simp [fixedTexts])⟩

/-! ## The statement builders -/

section Builders

open Query

variable {P : Request → Prop}

theorem sat_quoted (name : String) : Sat P Inert (quoted name) :=
  sat_guard fun _ h => quote_inert h

/-- A fetch of an inert statement is a direct request with inert text. -/
theorem fetch_direct (sql : String) (params : List Datum) (h : Inert sql) :
    Direct Inert (.fetch sql params) :=
  ⟨rfl, poolOk_fetch.2 h⟩

theorem sat_fetch_inert {sql : String} {params : List Datum} (h : Inert sql) :
    Sat (Direct Inert) (fun _ => True) (fetch sql params) :=
  sat_fetch (fetch_direct sql params h)

theorem sat_execute_inert {sql : String} {params : List Datum} (h : Inert sql) :
    Sat (Direct Inert) (fun _ => True) (execute sql params) :=
  sat_execute ⟨rfl, poolOk_execute.2 h⟩

/-! ### Schema reads

A read fetches inert statements and asks nothing else, but for the version read, which records
the version it read.  So any condition that holds of those requests holds along a read: the
statements' safety is one, and reading the database and nothing else another. -/

section Reads

variable (hfetch : ∀ sql params, Inert sql → P (.fetch sql params))
include hfetch

theorem sat_serverVersion (hnote : ∀ v, P (.noteVersion v)) :
    Sat P (fun _ => True) serverVersion := by
  unfold serverVersion
  refine (sat_fetch (hfetch _ _ (inert_fixed (by simp [fixedTexts])))).bind fun rows _ => ?_
  dsimp only
  split
  · exact (sat_ask (hnote _)).bind fun _ _ => sat_pure trivial
  · exact sat_fail _

theorem sat_tableNames : Sat P (fun _ => True) tableNames :=
  (sat_fetch (hfetch _ _ (inert_fixed (by simp [fixedTexts])))).bind fun _ _ => sat_pure trivial

theorem sat_describe (table : String) : Sat P (fun _ => True) (describe table) :=
  (sat_quoted table).bind fun _ hq =>
    (sat_fetch (hfetch _ _ (inert_append.2 ⟨inert_fixed (by simp [fixedTexts]), hq⟩))).bind
      fun _ _ => sat_pure trivial

theorem sat_columnNames (table : String) : Sat P (fun _ => True) (columnNames table) :=
  (sat_describe hfetch table).bind fun _ _ => sat_pure trivial

theorem sat_triggers : Sat P (fun _ => True) triggers :=
  (sat_fetch (hfetch _ _ (inert_fixed (by simp [fixedTexts])))).bind fun _ _ => sat_pure trivial

theorem sat_trigger (name : String) (database : Option String) :
    Sat P (fun _ => True) (trigger name database) := by
  unfold trigger
  refine (sat_quoted name).bind fun q hq => ?_
  -- whichever the target, reading its creation text sends one inert statement
  have hread : ∀ target, Inert target → ∀ k : Fetched → Query (Option String),
      (∀ rows, Sat P (fun _ => True) (k rows)) →
      Sat P (fun _ => True) (fetch ("SHOW CREATE TRIGGER " ++ target) [] >>= k) :=
    fun target htarget k hk =>
      (sat_fetch (hfetch _ _ (inert_append.2 ⟨inert_fixed (by simp [fixedTexts]), htarget⟩))).bind
        fun rows _ => hk rows
  dsimp only
  cases database with
  | some db =>
    refine (sat_quoted db).bind fun d hd => (sat_pure (Q := Inert) ?_).bind fun target ht => ?_
    · exact inert_append.2 ⟨inert_append.2 ⟨hd, inert_fixed (by simp [fixedTexts])⟩, hq⟩
    · exact hread target ht _ fun _ => sat_pure trivial
  | none =>
    exact (sat_pure (Q := Inert) hq).bind fun target ht => hread target ht _ fun _ => sat_pure trivial

theorem sat_triggerNames (database : Option String) :
    Sat P (fun _ => True) (triggerNames database) := by
  unfold triggerNames
  cases database with
  | some db =>
    exact (sat_quoted db).bind fun _ _ =>
      (sat_fetch (hfetch _ _ (inert_fixed (by simp [fixedTexts])))).bind fun _ _ => sat_pure trivial
  | none => exact (sat_fetch (hfetch _ _ (inert_fixed (by simp [fixedTexts])))).bind fun _ _ =>
      sat_pure trivial

end Reads

/-! ### Schema writes -/

theorem sat_columnDefinition (oldServer : Bool) (column : String × String) :
    Sat P Inert (columnDefinition oldServer column) := by
  unfold columnDefinition
  refine (sat_guard fun _ h => quoteColumn_inert h).bind fun name hname => ?_
  dsimp only
  split
  · -- a type outside the plain alphabet is refused
    exact (sat_fail (Q := fun _ => False) _).bind fun _ h => h.elim
  · rename_i hplain
    have hkind : Inert (Text.trim column.2) := inert_of_isPlain (by simpa using hplain)
    refine sat_pure (inert_append.2 ⟨inert_append.2 ⟨hname, inert_fixed (by simp [fixedTexts])⟩, ?_⟩)
    split
    · exact inert_forOldServer hkind
    · exact hkind

theorem sat_createTable (table : String) (columns : List (String × String)) :
    Sat (Direct Inert) (fun _ => True) (createTable table columns) := by
  unfold createTable
  refine (sat_quoted table).bind fun q hq => ?_
  dsimp only
  split
  · exact (sat_fail (Q := fun _ => False) _).bind fun _ h => h.elim
  · refine (sat_ask ⟨rfl, poolOk_of_poolText rfl⟩).bind fun version _ => ?_
    refine (sat_mapM columns fun c _ => sat_columnDefinition _ c).bind fun defs hdefs => ?_
    refine sat_execute_inert ?_
    simp only [inert_append]
    exact ⟨⟨⟨⟨inert_fixed (by simp [fixedTexts]), hq⟩, inert_fixed (by simp [fixedTexts])⟩,
      inert_intercalate (inert_fixed (by simp [fixedTexts])) hdefs⟩, inert_fixed (by simp [fixedTexts])⟩

theorem sat_removeTable (table : String) :
    Sat (Direct Inert) (fun _ => True) (removeTable table) :=
  (sat_quoted table).bind fun _ hq =>
    sat_execute_inert (inert_append.2 ⟨inert_fixed (by simp [fixedTexts]), hq⟩)

theorem sat_removeTrigger (name : String) :
    Sat (Direct Inert) (fun _ => True) (removeTrigger name) :=
  (sat_quoted name).bind fun _ hq =>
    sat_execute_inert (inert_append.2 ⟨inert_fixed (by simp [fixedTexts]), hq⟩)

/-! ### Row reads -/

/-- A select list: inert, or the caller's trimmed expression once the screen passed it. -/
def SelectText (columns : Projection) (sel : String) : Prop :=
  Inert sel ∨ ∃ e, columns = .expression e ∧ sel = Text.trim e ∧
    Screen.ensureSafe (Text.trim e) Families.symbolsAndKeywords = .ok ()

/-- A row read's statement whose select list is the caller's expression: `SELECT `, the trimmed
expression, which the screen passed, ` FROM ` and inert text. -/
def SelectsExpression (columns : Projection) (sql : String) : Prop :=
  ∃ e rest, columns = .expression e ∧
    Screen.ensureSafe (Text.trim e) Families.symbolsAndKeywords = .ok () ∧
    sql = "SELECT " ++ Text.trim e ++ " FROM " ++ rest ∧ Inert rest

theorem sat_selectList (columns : Projection) : Sat P (SelectText columns) (selectList columns) := by
  unfold selectList
  split
  · exact sat_pure (.inl (inert_fixed (by simp [fixedTexts])))
  · split
    · rename_i e _
      refine (sat_guard (Q := fun _ => Screen.ensureSafe (Text.trim e)
        Families.symbolsAndKeywords = .ok ()) fun u hu => ?_).bind fun _ hsafe =>
          sat_pure (.inr ⟨e, rfl, rfl, hsafe⟩)
      cases u
      exact hu
    · exact (sat_guard fun _ h => quoteColumns_inert h).bind fun _ hqs =>
        sat_pure (.inl (inert_intercalate (inert_fixed (by simp [fixedTexts])) hqs))

theorem sat_clause {clock : Stamp} {filter : RowFilter} :
    Sat P (fun c => Inert c.whereSql) (guard (BoundClause.ofFilter clock filter)) :=
  sat_guard fun _ h => whereSql_inert (ofFilter_inert h)

/-- A row read fetches one statement: inert, or the screened expression with inert text around
it; so it meets every condition that such fetches meet. -/
theorem sat_rows (clock : Stamp) (table : String) (columns : Projection) (filter : RowFilter)
    (asRecords : Bool)
    (hfetch : ∀ sql params, Inert sql ∨ SelectsExpression columns sql → P (.fetch sql params)) :
    Sat P (fun _ => True) (rows clock table columns filter asRecords) := by
  unfold rows
  refine (sat_quoted table).bind fun q hq => ?_
  refine (sat_selectList columns).bind fun sel hsel => ?_
  refine sat_clause.bind fun clause hclause => ?_
  refine (sat_fetch (hfetch _ _ ?_)).bind fun _ _ => sat_pure trivial
  have hrest : Inert (q ++ clause.whereSql) := inert_append.2 ⟨hq, hclause⟩
  rcases hsel with hsel | ⟨e, rfl, rfl, hsafe⟩
  · left
    simp only [inert_append] at hrest ⊢
    exact ⟨⟨⟨⟨inert_fixed (by simp [fixedTexts]), hsel⟩, inert_fixed (by simp [fixedTexts])⟩,
      hrest.1⟩, hrest.2⟩
  · right
    exact ⟨e, q ++ clause.whereSql, rfl, hsafe, by simp only [String.append_assoc], hrest⟩

theorem sat_size (clock : Stamp) (table column : String) (filter : RowFilter)
    (hfetch : ∀ sql params, Inert sql → P (.fetch sql params)) :
    Sat P (fun _ => True) (size clock table column filter) := by
  unfold size
  refine (sat_quoted table).bind fun q hq => ?_
  dsimp only
  -- the statement is the same whichever way the counted column is chosen
  refine sat_ite_bind (R := Inert) (sat_pure (inert_fixed (by simp [fixedTexts])))
    (sat_guard fun _ h => quoteColumn_inert h) fun counted hcounted => ?_
  refine sat_clause.bind fun clause hclause => ?_
  refine (sat_fetch (hfetch _ _ ?_)).bind fun _ _ => sat_pure trivial
  simp only [inert_append]
  exact ⟨⟨⟨⟨inert_fixed (by simp [fixedTexts]), hcounted⟩, inert_fixed (by simp [fixedTexts])⟩, hq⟩,
    hclause⟩

/-! ### Row writes -/

theorem sat_targetColumns (table : String) (columns : Option (List String)) :
    Sat (Direct Inert) (fun cs => ∀ c ∈ cs, Inert c) (targetColumns table columns) := by
  unfold targetColumns
  -- the names come from the caller or from the table; either way only their quoted forms leave
  have htail : ∀ names : List String, Sat (Direct Inert) (fun cs => ∀ c ∈ cs, Inert c)
      (if names.isEmpty then
        (fail (.invalid ("table '" ++ table ++ "' has no columns")) : Query Unit) >>= fun _ =>
          guard (Name.quoteColumns names)
      else guard (Name.quoteColumns names)) := by
    intro names
    split
    · exact (sat_fail (Q := fun _ => False) _).bind fun _ h => h.elim
    · exact sat_guard fun _ h => quoteColumns_inert h
  dsimp only
  split
  · split
    · exact (sat_columnNames fetch_direct table).bind fun names _ => htail names
    · exact (sat_pure (Q := fun _ => True) trivial).bind fun names _ => htail names
  · exact (sat_columnNames fetch_direct table).bind fun names _ => htail names

theorem sat_fitRow (clock : Stamp) (table : String) (row : Row) (width : Nat) :
    Sat P (fun _ => True) (fitRow clock table row width) := by
  unfold fitRow
  split
  · exact sat_fail _
  · exact sat_pure trivial

theorem inert_group {cs : List String} :
    Inert ("(" ++ ", ".intercalate (cs.map fun _ => "?") ++ ")") := by
  have hmarks : ∀ s ∈ cs.map (fun _ => "?"), Inert s := by
    intro s hs
    obtain ⟨_, _, rfl⟩ := List.mem_map.1 hs
    exact inert_fixed (by simp [fixedTexts])
  simp only [inert_append]
  exact ⟨⟨inert_fixed (by simp [fixedTexts]), inert_intercalate (inert_fixed (by simp [fixedTexts]))
    hmarks⟩, inert_fixed (by simp [fixedTexts])⟩

theorem sat_insertRows {q : String} {cs : List String} (rows : List Row) (hq : Inert q)
    (hcs : ∀ c ∈ cs, Inert c) : Sat (Direct Inert) (fun _ => True) (insertRows q cs rows) := by
  unfold insertRows
  dsimp only
  refine sat_execute_inert ?_
  have hgroups : ∀ s ∈ rows.map (fun _ => "(" ++ ", ".intercalate (cs.map fun _ => "?") ++ ")"),
      Inert s := by
    intro s hs
    obtain ⟨_, _, rfl⟩ := List.mem_map.1 hs
    exact inert_group
  simp only [inert_append]
  exact ⟨⟨⟨⟨⟨inert_fixed (by simp [fixedTexts]), hq⟩, inert_fixed (by simp [fixedTexts])⟩,
    inert_intercalate (inert_fixed (by simp [fixedTexts])) hcs⟩, inert_fixed (by simp [fixedTexts])⟩,
    inert_intercalate (inert_fixed (by simp [fixedTexts])) hgroups⟩

theorem sat_updateRows {q : String} {cs : List String} (values : Row) {clause : BoundClause}
    (hq : Inert q) (hcs : ∀ c ∈ cs, Inert c) (hclause : Inert clause.whereSql) :
    Sat (Direct Inert) (fun _ => True) (updateRows q cs values clause) := by
  unfold updateRows
  refine sat_execute_inert ?_
  have hsets : ∀ s ∈ cs.map (· ++ " = ?"), Inert s := by
    intro s hs
    obtain ⟨c, hc, rfl⟩ := List.mem_map.1 hs
    exact inert_append.2 ⟨hcs c hc, inert_fixed (by simp [fixedTexts])⟩
  simp only [inert_append]
  exact ⟨⟨⟨⟨inert_fixed (by simp [fixedTexts]), hq⟩, inert_fixed (by simp [fixedTexts])⟩,
    inert_intercalate (inert_fixed (by simp [fixedTexts])) hsets⟩, hclause⟩

theorem sat_insert (clock : Stamp) (table : String) (rows : List Row)
    (columns : Option (List String)) :
    Sat (Direct Inert) (fun _ => True) (insert clock table rows columns) := by
  unfold insert
  refine (sat_quoted table).bind fun q hq => ?_
  refine (sat_targetColumns table columns).bind fun cs hcs => ?_
  split
  · exact sat_pure trivial
  · exact (sat_mapM rows fun r _ => sat_fitRow clock table r cs.length).bind fun fitted _ =>
      sat_insertRows fitted hq hcs

theorem sat_update (clock : Stamp) (table : String) (values : Row)
    (columns : Option (List String)) (filter : RowFilter) :
    Sat (Direct Inert) (fun _ => True) (update clock table values columns filter) := by
  unfold update
  refine (sat_quoted table).bind fun q hq => ?_
  refine (sat_targetColumns table columns).bind fun cs hcs => ?_
  refine (sat_fitRow clock table values cs.length).bind fun vs _ => ?_
  exact sat_clause.bind fun clause hclause => sat_updateRows vs hq hcs hclause

theorem sat_upsertRow (clock : Stamp) (table q : String) (cs : List String) (row : Row)
    (hq : Inert q) (hcs : ∀ c ∈ cs, Inert c) :
    Sat (Direct Inert) (fun _ => True) (upsertRow clock table q cs row) := by
  unfold upsertRow
  split
  · exact sat_pure trivial
  · refine (sat_fitRow clock table row cs.length).bind fun values _ => ?_
    -- the key column is the first quoted column, or empty when there is none
    have hkey : Inert (cs.headD "") := by
      cases cs with
      | nil => simp [Inert]
      | cons c _ => exact hcs c (by simp)
    refine (sat_fetch_inert ?_).bind fun existing _ => ?_
    · simp only [inert_append]
      exact ⟨⟨⟨⟨inert_fixed (by simp [fixedTexts]), hq⟩, inert_fixed (by simp [fixedTexts])⟩, hkey⟩,
        inert_fixed (by simp [fixedTexts])⟩
    · split
      · exact sat_updateRows values hq hcs (whereSql_inert (equals_inert hkey))
      · exact sat_insertRows [values] hq hcs

theorem sat_upsert (clock : Stamp) (table : String) (rows : List Row)
    (columns : Option (List String)) :
    Sat (Direct Inert) (fun _ => True) (upsert clock table rows columns) := by
  unfold upsert
  refine (sat_quoted table).bind fun q hq => ?_
  refine (sat_targetColumns table columns).bind fun cs hcs => ?_
  exact sat_foldlM rows trivial fun _ _ row _ =>
    (sat_upsertRow clock table q cs row hq hcs).bind fun _ _ => sat_pure trivial

theorem sat_delete (clock : Stamp) (table : String) (filter : RowFilter) :
    Sat (Direct Inert) (fun _ => True) (delete clock table filter) := by
  unfold delete
  refine (sat_quoted table).bind fun q hq => ?_
  refine sat_clause.bind fun clause hclause => sat_execute_inert ?_
  simp only [inert_append]
  exact ⟨⟨inert_fixed (by simp [fixedTexts]), hq⟩, hclause⟩

end Builders

end Statements

/-! ## The cache and the front -/

namespace Front

open Query Statements

section Cache

/- The cache's own requests go to the store and send no statement, so they meet any condition
that every request without a statement meets. -/
variable {P : Request → Prop} (hP : ∀ r, r.poolText? = none → P r)
include hP

/-- Deleting the keys of a pattern talks to the store only. -/
theorem sat_deleteMatching (pattern : String) :
    Sat P (fun _ => True) (Binding.deleteMatching pattern) := by
  unfold Binding.deleteMatching
  refine (sat_mk (Talk.sat_request (r := .storeScan pattern) (hP _ rfl))).bind fun keys _ => ?_
  exact sat_foldlM keys trivial fun _ _ key _ =>
    (sat_mk (Talk.sat_request (r := .storeDelete key) (hP _ rfl))).bind fun _ _ =>
      sat_pure trivial

theorem sat_deletePatterns (patterns : List String) :
    Sat P (fun _ => True) (Binding.deletePatterns patterns) :=
  sat_foldlM patterns trivial fun _ _ p _ =>
    (sat_deleteMatching hP p).bind fun _ _ => sat_pure trivial

/-- A write through the cache adds store requests only, and succeeds with the write's value. -/
theorem sat_writeThrough {α : Type} {Q : α → Prop} (patterns : List String) {write : Query α}
    (h : Sat P Q write) : Sat P Q (Binding.writeThrough patterns write) :=
  h.bind fun _ hv => (sat_lift (sat_deletePatterns hP patterns).talk).bind fun _ _ => sat_pure hv

/-- A read through the cache adds store requests only; its value is the read's or one decoded
from the store, so no condition on it survives. -/
theorem sat_readThrough {α : Type} {Q : α → Prop} (b : Binding) (key : CacheKey)
    (override : Option Int) (payload : Payload α) {fetch : Query α}
    (h : Sat P Q fetch) :
    Sat P (fun _ => True) (b.readThrough key override payload fetch) := by
  have hfetch := h.mono (fun _ hr => hr) fun _ _ => trivial
  -- on a miss the read fetches and stores; a hit is returned as it is
  have hmiss : Sat P (fun _ => True)
      (do
        let v ← fetch
        let _ ← Query.ask (.storeSet key.render (Json.compact (payload.encode v))
          (b.lifetimes.effective key.category override))
        pure v) :=
    hfetch.bind fun _ _ => (sat_ask (hP _ rfl)).bind fun _ _ => sat_pure trivial
  unfold Binding.readThrough
  dsimp only
  refine (sat_ask (hP _ rfl)).bind fun answer _ => ?_
  -- the store's answer decides whether there is a hit; each way ends with a hit or a miss
  split
  · exact hfetch
  · split
    · exact (sat_pure (Q := fun _ => True) trivial).bind fun hit _ =>
        hit.casesOn hmiss fun _ => sat_pure trivial
    · split
      · exact (sat_pure (Q := fun _ => True) trivial).bind fun hit _ =>
          hit.casesOn hmiss fun _ => sat_pure trivial
      · split
        · exact (sat_fail (Q := fun _ => True) _).bind fun hit _ =>
            hit.casesOn hmiss fun _ => sat_pure trivial
        · -- an entry that does not decode is deleted and read as a miss
          exact (sat_ask (hP _ rfl)).bind fun _ _ =>
            (sat_pure (Q := fun _ => True) trivial).bind fun hit _ =>
              hit.casesOn hmiss fun _ => sat_pure trivial

theorem sat_cachedRead {α : Type} {Q : α → Prop} (binding : Option Binding)
    (key : Binding → CacheKey) (ttl : Option Int) (payload : Payload α) {direct : Query α}
    (h : Sat P Q direct) :
    Sat P (fun _ => True) (cachedRead binding key ttl payload direct) := by
  cases binding with
  | some b => exact sat_readThrough hP b (key b) ttl payload h
  | none => exact h.mono (fun _ hr => hr) fun _ _ => trivial

theorem sat_cachedWrite {α : Type} {Q : α → Prop} (binding : Option Binding)
    (patterns : KeySpace → List String) {direct : Query α} (h : Sat P Q direct) :
    Sat P Q (cachedWrite binding patterns direct) := by
  cases binding with
  | some b => exact sat_writeThrough hP (patterns b.space) h
  | none => exact h

end Cache

section Operations

/-- What the front may send to the pool for an operation: inert text or, for a row read, the
statement around its screened select-list expression. -/
def PoolStatement (op : Operation) (sql : String) : Prop :=
  Inert sql ∨ ∃ table columns filter asRecords ttl,
    op = .rows table columns filter asRecords ttl ∧ SelectsExpression columns sql

theorem sat_perform (clock : Stamp) (binding : Option Binding) (op : Operation)
    (hop : ∀ name table timing body, op ≠ .installTrigger name table timing body) :
    Sat (PoolOk (PoolStatement op)) (fun _ => True) (perform clock binding op) := by
  -- every operation but a row read sends inert text only
  have inert : ∀ {α : Type} {x : Query α}, Sat (PoolOk Inert) (fun _ => True) x →
      Sat (PoolOk (PoolStatement op)) (fun _ => True) x :=
    fun h => h.mono (fun _ hr sql hsql => .inl (hr sql hsql)) fun _ hq => hq
  have direct : ∀ {ok ok' : String → Prop}, (∀ sql, ok sql → ok' sql) →
      ∀ {α : Type} {Q : α → Prop} {x : Query α}, Sat (Direct ok) Q x → Sat (Direct ok') Q x :=
    fun hok _ _ _ h => h.mono (fun _ hr => ⟨hr.1, fun sql hsql => hok sql (hr.2 sql hsql)⟩)
      fun _ hq => hq
  -- the builders' requests, read for their statements only
  have pool : ∀ {ok : String → Prop} {α : Type} {Q : α → Prop} {x : Query α},
      Sat (Direct ok) Q x → Sat (PoolOk ok) Q x :=
    fun h => h.mono (fun _ hr => hr.2) fun _ hq => hq
  have read : ∀ {α β : Type} {Q : α → Prop} {x : Query α} (key : Binding → CacheKey) ttl
      payload (g : α → β), Sat (Direct Inert) Q x →
      Sat (PoolOk (PoolStatement op)) (fun _ => True) (g <$> cachedRead binding key ttl payload x) :=
    fun key ttl payload g h => inert ((sat_cachedRead (fun _ => poolOk_of_poolText) binding key ttl
      payload (pool h)).map fun _ _ => trivial)
  have write : ∀ {α β : Type} {x : Query α} patterns (g : α → β),
      Sat (Direct Inert) (fun _ => True) x →
      Sat (PoolOk (PoolStatement op)) (fun _ => True) (g <$> cachedWrite binding patterns x) :=
    fun patterns g h => inert ((sat_cachedWrite (fun _ => poolOk_of_poolText) binding patterns
      (pool h)).map fun _ _ => trivial)
  cases op with
  | serverVersion ttl =>
    exact (inert (sat_cachedRead (fun _ => poolOk_of_poolText) binding _ ttl _
      (pool (sat_serverVersion fetch_direct fun _ => ⟨rfl, poolOk_of_poolText rfl⟩)))).bind
        fun _ _ => (sat_ask (poolOk_of_poolText rfl)).bind fun _ _ => sat_pure trivial
  | tableNames ttl => exact read _ ttl _ _ (sat_tableNames fetch_direct)
  | columnNames table ttl => exact read _ ttl _ _ (sat_columnNames fetch_direct table)
  | describe table ttl => exact read _ ttl _ _ (sat_describe fetch_direct table)
  | triggers ttl => exact read _ ttl _ _ (sat_triggers fetch_direct)
  | trigger name database ttl => exact read _ ttl _ _ (sat_trigger fetch_direct name database)
  | triggerNames database ttl => exact read _ ttl _ _ (sat_triggerNames fetch_direct database)
  | createTable table columns => exact write _ _ (sat_createTable table columns)
  | removeTable table => exact write _ _ (sat_removeTable table)
  | installTrigger name table timing body => exact absurd rfl (hop name table timing body)
  | removeTrigger name => exact write _ _ (sat_removeTrigger name)
  | rows table columns filter asRecords ttl =>
    -- the one statement that may carry caller text outside a name or a parameter
    refine (sat_cachedRead (fun _ => poolOk_of_poolText) binding _ ttl _ (pool (direct
      (fun sql hsql => ?_) (sat_rows clock table columns filter asRecords
        fun _ _ h => ⟨rfl, poolOk_fetch.2 h⟩)))).map fun _ _ => trivial
    rcases hsql with h | h
    · exact .inl h
    · exact .inr ⟨table, columns, filter, asRecords, ttl, rfl, h⟩
  | size table column filter ttl =>
    exact read _ ttl _ _ (sat_size clock table column filter fetch_direct)
  | insert table rows columns => exact write _ _ (sat_insert clock table rows columns)
  | update table values columns filter =>
    exact write _ _ (sat_update clock table values columns filter)
  | upsert table rows columns => exact write _ _ (sat_upsert clock table rows columns)
  | delete table filter => exact write _ _ (sat_delete clock table filter)

end Operations

end Front

end QueryShield
