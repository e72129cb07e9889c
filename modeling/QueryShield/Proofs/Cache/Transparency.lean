import Mathlib
import QueryShield.Proofs.Cache.KeyAgreement
import QueryShield.Proofs.Cache.BindingProtocol
import QueryShield.Proofs.Cache.PayloadRoundTrip

/-!
# Sessions through the cache answer as the database does

A cache binding is transparent when a session of operations through it returns, operation by
operation, what the front without a binding returns from the same state.  This module states
when that holds of whole sessions, against any database.

The database is abstract (`Database`): a query answers from the committed state, and a write
commits or fails.  It sits beside a rehearsal stage, which keeps the store and the version last
recorded (`Backend`).  What a database holds is split into resources: the table list, a table's
columns, a table's rows, the trigger list and one trigger (`Resource`).  A read reads some of
them (`Operation.reads`) and a write touches some (`Operation.touches`), as MySQL runs the
front's statements.

`Backend.session_transparent` is the main statement.  Start from an empty store that never fails.
Then every operation of a session through a binding (`Backend.session`) returns what the same
operation without the binding returns from the state the session is in, and leaves the database
as that one does, provided each step is well behaved (`Backend.Step.WellBehaved`):

* no write fails after committing a statement (`Front.failed_install_keeps_triggers` shows a
  trigger installation that does, and breaks transparency);
* every write that succeeds leaves alone each read of the session that reads nothing the write
  touches (MySQL does, unless a trigger writes another table or a dropped table had triggers);
* every value a read of the session takes from the database comes back from the text it is
  stored as (`Payload.decode_names` and its neighbours say which values do);

and the reads' keys tell them apart: no spelling a key loses and no two parameter sets sharing a
digest (`Operation.plan_eq_of_render_eq`).

The proof is an invariant (`Backend.Coherent`): the store never fails, and every live entry under
the key of a read of the session decodes to the value that read returns now without a binding.
A read keeps it (`Backend.read_step`): a hit returns the decoded value, which is the direct
answer, and a miss runs the query the direct read runs and stores a value that comes back.  A
write keeps it (`Backend.write_step`): it runs the same statements; when it fails the database is
as it was, and when it succeeds its patterns cover the key of every read of what it touched
(`Operation.matchedBy_of_touches`), so the entries left are those of reads it did not change.
`Backend.session_coherent` carries the invariant along a session.
-/

namespace QueryShield

/-! ## A database beside the stage -/

/-- A database as the front talks to it: a query answers from the committed state, and a write
either commits, giving the next state, or fails. -/
structure Database (D : Type) where
  fetch : String → List Datum → D → Except PoolFault Fetched
  execute : String → List Datum → D → Except PoolFault WriteResult × D

/-- A database and a stage: the database answers the pool's requests, and the stage keeps the
store and the version last recorded. -/
structure Backend (D : Type) where
  db : D
  stage : Stage

/-- What a read asks of its backends: rows from the database, or the recording of the version. -/
def Request.IsLookup : Request → Prop
  | .fetch .. => True
  | .noteVersion _ => True
  | _ => False

namespace WatchedStore

/-- A store that never fails: it is up and refuses no command. -/
def Reliable (st : WatchedStore) : Prop := st.down = false ∧ st.refusing = []

variable {st st' : WatchedStore}

theorem Reliable.serves (h : st.Reliable) : st.Serves := by
  simp [Serves, h.1, h.2]

theorem Reliable.of_settings (h : st.Reliable) (hset : st'.settings = st.settings) :
    st'.Reliable := by
  simp only [settings, Prod.mk.injEq] at hset
  exact ⟨hset.1.trans h.1, hset.2.1.trans h.2⟩

theorem now_of_settings (hset : st'.settings = st.settings) : st'.now = st.now := by
  simp only [settings, Prod.mk.injEq] at hset
  simp only [now, hset.2.2]

theorem get_of_reliable (h : st.Reliable) (k : String) :
    st.get k = .ok (st.entries.get? k st.now,
      { st with entries := st.entries.dropExpired k st.now }) := by
  simp [get, allow, h.1, h.2, ExpiringMap.get]

/-- Storing in a store that never fails succeeds: the value goes in, or the store panics and
keeps its entries. -/
theorem set_of_reliable (h : st.Reliable) (k v : String) (life : Option Nat) :
    ∃ st', st.set k v life = .ok st' ∧
      (st'.entries = st.entries.set k v life st.now ∨ st'.entries = st.entries) := by
  unfold set
  simp only [allow, h.1, h.2, List.contains_nil, Bool.false_eq_true, if_false]
  cases st.panicOf life with
  | none => exact ⟨_, rfl, .inl rfl⟩
  | some p => exact ⟨_, rfl, .inr rfl⟩

end WatchedStore

namespace ExpiringMap

variable {m : ExpiringMap} {k k' t : String} {now : Nat}

/-- Dropping entries keeps the live value of every key that keeps its entry. -/
theorem get?_filter {q : String × Entry → Bool} (h : (m.filter q).get? k now = some t) :
    m.get? k now = some t := by
  obtain ⟨e, he, hlive, rfl⟩ := get_fst_eq_some_iff.1 h
  rw [entries_filter, lookup_filter _ m.nodup_keys] at he
  exact get_fst_eq_some_iff.2 ⟨e, (Option.filter_eq_some_iff.1 he).1, hlive, rfl⟩

/-- After storing under `k`, a live value is the stored one under `k`, or was there before. -/
theorem get?_set {v : String} {life : Option Nat} (h : (m.set k v life now).get? k' now = some t) :
    (k' = k ∧ t = v) ∨ m.get? k' now = some t := by
  obtain ⟨e, he, hlive, rfl⟩ := get_fst_eq_some_iff.1 h
  rw [lookup_set] at he
  by_cases hk : k' = k
  · simp only [hk, if_true, Option.some.injEq] at he
    exact .inl ⟨hk, by rw [← he]⟩
  · rw [if_neg hk] at he
    exact .inr (get_fst_eq_some_iff.2 ⟨e, he, hlive, rfl⟩)

/-- After the live keys matching the patterns are dropped, a live value was there before, under
a key that no pattern accepts. -/
theorem get?_withoutMatching {patterns : List String}
    (h : (m.withoutMatching patterns now).get? k now = some t) :
    m.get? k now = some t ∧ ∀ p ∈ patterns, Glob.accepts p k = false := by
  obtain ⟨e, he, hlive, rfl⟩ := get_fst_eq_some_iff.1 h
  rw [lookup_withoutMatching] at he
  split at he
  · simp at he
  · rename_i hany
    refine ⟨get_fst_eq_some_iff.2 ⟨e, he, hlive, rfl⟩, fun p hp => ?_⟩
    -- the key is live, so a pattern that accepted it would have found it in its scan
    by_contra hacc
    simp only [Bool.not_eq_false] at hacc
    exact hany (List.any_eq_true.2 ⟨p, hp, List.contains_iff_mem.2
      ((mem_scan p).2 ⟨⟨e, he, hlive⟩, hacc⟩)⟩)

end ExpiringMap

/-! ## Running the front on a backend -/

namespace Backend

variable {D : Type} (B : Database D)

/-- Answers one request: the pool's from the database, every other from the stage. -/
def answer : (r : Request) → Backend D → r.Answer × Backend D
  | .fetch sql params, s => (B.fetch sql params s.db, s)
  | .execute sql params, s =>
    ((B.execute sql params s.db).1, { s with db := (B.execute sql params s.db).2 })
  | r, s => ((Stage.answer r s.stage).1, { s with stage := (Stage.answer r s.stage).2 })

/-- Performs one operation of the front. -/
def perform (clock : Stamp) (binding : Option Binding) (op : Operation) (s : Backend D) :
    Except QueryFault Outcome × Backend D :=
  Talk.run (answer B) (Front.perform clock binding op).run s

/-- The backend with the store's entries replaced. -/
def withEntries (s : Backend D) (m : ExpiringMap) : Backend D :=
  { s with stage := { s.stage with store := { s.stage.store with entries := m } } }

theorem answer_of_poolText {r : Request} (hr : r.poolText? = none) (s : Backend D) :
    answer B r s = ((Stage.answer r s.stage).1, { s with stage := (Stage.answer r s.stage).2 }) := by
  cases r <;> simp only [Request.poolText?, reduceCtorEq] at hr <;> rfl

theorem answer_db {r : Request} (hr : r.poolText? = none) (s : Backend D) :
    (answer B r s).2.db = s.db := by
  rw [answer_of_poolText B hr]

/-- A conversation that sends nothing to the pool runs on the stage alone. -/
theorem run_offline {α : Type} {Q : α → Prop} {t : Talk α}
    (h : Talk.Sat (fun r => r.poolText? = none) Q t) (s : Backend D) :
    Talk.run (answer B) t s =
      ((Stage.run t s.stage).1, { s with stage := (Stage.run t s.stage).2 }) := by
  induction t generalizing s with
  | done a => rfl
  | ask r next ih =>
    obtain ⟨hr, hnext⟩ := Talk.sat_ask.1 h
    show Talk.run (answer B) (next (answer B r s).1) (answer B r s).2 =
      ((Stage.run (next (Stage.answer r s.stage).1) (Stage.answer r s.stage).2).1, _)
    rw [answer_of_poolText B hr, ih _ (hnext _)]
    rfl

/-! ### Lookups -/

theorem answer_lookup {r : Request} (hr : r.IsLookup) {s₁ s₂ : Backend D}
    (hdb : s₁.db = s₂.db) :
    (answer B r s₁).1 = (answer B r s₂).1 := by
  cases r <;> simp only [Request.IsLookup] at hr
  · show B.fetch _ _ s₁.db = B.fetch _ _ s₂.db
    rw [hdb]
  · rfl

theorem answer_lookup_keeps {r : Request} (hr : r.IsLookup) (s : Backend D) :
    (answer B r s).2.db = s.db ∧ (answer B r s).2.stage.store = s.stage.store := by
  cases r <;> simp only [Request.IsLookup] at hr <;> exact ⟨rfl, rfl⟩

/-- A conversation of lookups answers from the database alone. -/
theorem run_lookup {α : Type} {Q : α → Prop} {t : Talk α} (h : Talk.Sat Request.IsLookup Q t)
    {s₁ s₂ : Backend D} (hdb : s₁.db = s₂.db) :
    (Talk.run (answer B) t s₁).1 = (Talk.run (answer B) t s₂).1 := by
  induction t generalizing s₁ s₂ with
  | done a => rfl
  | ask r next ih =>
    obtain ⟨hr, hnext⟩ := Talk.sat_ask.1 h
    have hdb' : (answer B r s₁).2.db = (answer B r s₂).2.db :=
      (answer_lookup_keeps B hr s₁).1.trans (hdb.trans (answer_lookup_keeps B hr s₂).1.symm)
    show (Talk.run (answer B) (next (answer B r s₁).1) (answer B r s₁).2).1 =
      (Talk.run (answer B) (next (answer B r s₂).1) (answer B r s₂).2).1
    rw [answer_lookup B hr hdb]
    exact ih _ (hnext _) hdb'

/-- A conversation of lookups leaves the database and the store as they were. -/
theorem run_lookup_keeps {α : Type} {Q : α → Prop} {t : Talk α}
    (h : Talk.Sat Request.IsLookup Q t) (s : Backend D) :
    (Talk.run (answer B) t s).2.db = s.db ∧ (Talk.run (answer B) t s).2.stage.store = s.stage.store :=
  h.run_inv (I := fun s' : Backend D => s'.db = s.db ∧ s'.stage.store = s.stage.store)
    (fun _ s' hr hs' => ⟨(answer_lookup_keeps B hr s').1.trans hs'.1,
      (answer_lookup_keeps B hr s').2.trans hs'.2⟩) ⟨rfl, rfl⟩

theorem answer_store {r : Request} (hr : r.isStore = false) (s : Backend D) :
    (answer B r s).2.stage.store = s.stage.store := by
  cases r <;> simp only [Request.isStore, Bool.true_eq_false] at hr <;> rfl

/-- A conversation without store requests leaves the store as it was. -/
theorem run_keeps_store {α : Type} {Q : α → Prop} {t : Talk α}
    (h : Talk.Sat (fun r => r.isStore = false) Q t) (s : Backend D) :
    (Talk.run (answer B) t s).2.stage.store = s.stage.store :=
  h.run_inv (I := fun s' : Backend D => s'.stage.store = s.stage.store)
    (fun _ s' hr hs' => (answer_store B hr s').trans hs') rfl

/-! ### The store, when it never fails -/

section Reliable

variable {s : Backend D} (hrel : s.stage.store.Reliable)
include hrel

theorem answer_storeGet (K : String) :
    answer B (.storeGet K) s = (.ok (s.stage.store.entries.get? K s.stage.store.now),
      s.withEntries (s.stage.store.entries.dropExpired K s.stage.store.now)) := by
  rw [answer_of_poolText B rfl]
  simp only [Stage.answer, WatchedStore.get_of_reliable hrel]
  rfl

/-- Storing succeeds and keeps the store's settings: the value goes in, or the store panics and
keeps its entries. -/
theorem answer_storeSet (K v : String) (life : Option Nat) :
    ∃ st', answer B (.storeSet K v life) s = (.ok (), { s with stage := { s.stage with
        store := st', stored := s.stage.stored ++ [⟨K, v, life⟩] } }) ∧
      st'.settings = s.stage.store.settings ∧
      (st'.entries = s.stage.store.entries.set K v life s.stage.store.now ∨
        st'.entries = s.stage.store.entries) := by
  obtain ⟨st', hset, hentries⟩ := WatchedStore.set_of_reliable hrel K v life
  refine ⟨st', ?_, WatchedStore.settings_of_set hset, hentries⟩
  rw [answer_of_poolText B rfl]
  simp only [Stage.answer, hset]

variable {α : Type} {b : Binding} {k : CacheKey} {override : Option Int} {payload : Payload α}
  {q : Query α}

/-- A hit that decodes: the read returns the decoded value. -/
theorem run_readThrough_hit {text : String} {v : α}
    (hget : s.stage.store.entries.get? k.render s.stage.store.now = some text)
    (hdec : payload.decode text = .ok v) :
    Talk.run (answer B) (b.readThrough k override payload q).run s =
      (.ok v, s.withEntries (s.stage.store.entries.dropExpired k.render s.stage.store.now)) := by
  have hask : Talk.run (answer B) (Query.ask (.storeGet k.render)).run s =
      (.ok (.ok (some text)),
        s.withEntries (s.stage.store.entries.dropExpired k.render s.stage.store.now)) := by
    rw [run_ask, answer_storeGet B hrel, hget]
  unfold Binding.readThrough
  rw [run_bind_ok hask]
  simp only [hdec]
  rfl

/-- A miss: the read runs its query and stores the value. -/
theorem run_readThrough_miss (hget : s.stage.store.entries.get? k.render s.stage.store.now = none) :
    Talk.run (answer B) (b.readThrough k override payload q).run s =
      Talk.run (answer B) (Binding.fill q k.render (fun v => Json.compact (payload.encode v))
        (b.lifetimes.effective k.category override)).run
        (s.withEntries (s.stage.store.entries.dropExpired k.render s.stage.store.now)) := by
  have hask : Talk.run (answer B) (Query.ask (.storeGet k.render)).run s =
      (.ok (.ok none),
        s.withEntries (s.stage.store.entries.dropExpired k.render s.stage.store.now)) := by
    rw [run_ask, answer_storeGet B hrel, hget]
  unfold Binding.readThrough
  rw [run_bind_ok hask]
  rfl

end Reliable

section Fill

variable {α : Type} {q : Query α} {s s₁ : Backend D} (K : String) (value : α → String)
  (life : Option Nat)

theorem run_fill_ok {v : α} (hq : Talk.run (answer B) q.run s = (.ok v, s₁)) :
    Talk.run (answer B) (Binding.fill q K value life).run s =
      (.ok v, (answer B (.storeSet K (value v) life) s₁).2) := by
  unfold Binding.fill
  rw [run_bind_ok hq, run_bind_ok (run_ask _ _)]
  rfl

theorem run_fill_error {e : QueryFault} (hq : Talk.run (answer B) q.run s = (.error e, s₁)) :
    Talk.run (answer B) (Binding.fill q K value life).run s = (.error e, s₁) := by
  unfold Binding.fill
  exact run_bind_error hq

end Fill

theorem run_writeThrough_error {α : Type} {ps : List String} {q : Query α} {s s₁ : Backend D}
    {e : QueryFault} (hq : Talk.run (answer B) q.run s = (.error e, s₁)) :
    Talk.run (answer B) (Binding.writeThrough ps q).run s = (.error e, s₁) := by
  unfold Binding.writeThrough
  exact run_bind_error hq

/-- A write that succeeds, then the deletion of its patterns from a store that serves them. -/
theorem run_writeThrough_ok {α : Type} {ps : List String} {q : Query α} {s s₁ : Backend D} {v : α}
    (hq : Talk.run (answer B) q.run s = (.ok v, s₁)) (hs : s₁.stage.store.Serves) :
    Talk.run (answer B) (Binding.writeThrough ps q).run s =
      (.ok v, s₁.withEntries (s₁.stage.store.entries.withoutMatching ps s₁.stage.store.now)) := by
  obtain ⟨n, hdel⟩ := Binding.run_deletePatterns_eq hs ps
  have hrun : Talk.run (answer B) (Binding.deletePatterns ps).run s₁ =
      (.ok n, s₁.withEntries (s₁.stage.store.entries.withoutMatching ps s₁.stage.store.now)) := by
    rw [run_offline B (Front.sat_deletePatterns (fun _ h => h) ps).talk]
    rw [hdel]
    rfl
  unfold Binding.writeThrough
  rw [run_bind_ok hq, run_bind_ok (by rw [run_lift, hrun])]
  rfl

end Backend

/-! ## Reads answer from the database alone -/

/-- What the front does with a read's value asks what recording the value asks. -/
theorem ReadPlan.sat_finish {P : Request → Prop} {p : ReadPlan} {v : p.α}
    (h : Query.Sat P (fun _ => True) (p.record v)) : Query.Sat P (fun _ => True) (p.finish v) :=
  h.bind fun _ _ => Query.sat_pure trivial

namespace Operation

variable {clock : Stamp} {r : Operation} {p : ReadPlan}

/-- A read's query, and what the front records of its value, ask only lookups. -/
theorem sat_plan (h : r.plan? clock = some p) :
    Query.Sat Request.IsLookup (fun _ => True) p.query ∧
      ∀ v, Query.Sat Request.IsLookup (fun _ => True) (p.record v) := by
  have fetch : ∀ sql params, Statements.Inert sql → Request.IsLookup (.fetch sql params) :=
    fun _ _ _ => trivial
  cases r <;> simp only [plan?, reduceCtorEq, Option.some.injEq] at h <;> subst h
  case serverVersion =>
    exact ⟨Statements.sat_serverVersion fetch fun _ => trivial,
      fun v => Query.sat_ask (P := Request.IsLookup) (r := .noteVersion (some v)) trivial⟩
  case tableNames => exact ⟨Statements.sat_tableNames fetch, fun _ => Query.sat_pure trivial⟩
  case columnNames table _ =>
    exact ⟨Statements.sat_columnNames fetch table, fun _ => Query.sat_pure trivial⟩
  case describe table _ =>
    exact ⟨Statements.sat_describe fetch table, fun _ => Query.sat_pure trivial⟩
  case triggers => exact ⟨Statements.sat_triggers fetch, fun _ => Query.sat_pure trivial⟩
  case trigger name database _ =>
    exact ⟨Statements.sat_trigger fetch name database, fun _ => Query.sat_pure trivial⟩
  case triggerNames database _ =>
    exact ⟨Statements.sat_triggerNames fetch database, fun _ => Query.sat_pure trivial⟩
  case rows table columns filter asRecords _ =>
    exact ⟨Statements.sat_rows clock table columns filter asRecords fun _ _ _ => trivial,
      fun _ => Query.sat_pure trivial⟩
  case size table column filter _ =>
    exact ⟨Statements.sat_size clock table column filter fetch, fun _ => Query.sat_pure trivial⟩

/-- Without a binding a read asks only lookups. -/
theorem sat_perform_none (h : r.plan? clock = some p) :
    Query.Sat Request.IsLookup (fun _ => True) (Front.perform clock none r) := by
  rw [perform_none_of_plan h]
  exact (sat_plan h).1.bind fun v _ => ReadPlan.sat_finish ((sat_plan h).2 v)

/-- Every operation is a read, with a plan, or a write, with its statements. -/
theorem plan_or_write (clock : Stamp) (r : Operation) :
    (∃ p, r.plan? clock = some p) ∨ ∃ q, Front.writeQuery? clock r = some q := by
  cases r
  case createTable | removeTable | installTrigger | removeTrigger | insert | update | upsert |
      delete =>
    exact .inr ⟨_, rfl⟩
  all_goals exact .inl ⟨_, rfl⟩

end Operation

namespace Backend

variable {D : Type} (B : Database D) {clock : Stamp} {r : Operation} {p : ReadPlan}

/-- Without a binding, a read returns what the database holds, whatever the stage. -/
theorem perform_read_of_db (hp : r.plan? clock = some p) {s₁ s₂ : Backend D}
    (hdb : s₁.db = s₂.db) : (perform B clock none r s₁).1 = (perform B clock none r s₂).1 :=
  run_lookup B (Operation.sat_perform_none hp).talk hdb

theorem perform_read_keeps (hp : r.plan? clock = some p) (s : Backend D) :
    (perform B clock none r s).2.db = s.db ∧
      (perform B clock none r s).2.stage.store = s.stage.store :=
  run_lookup_keeps B (Operation.sat_perform_none hp).talk s

theorem run_finish (hp : r.plan? clock = some p) (v : p.α) (s : Backend D) :
    (Talk.run (answer B) (p.finish v).run s).1 = .ok (p.outcome v) := by
  cases r <;> simp only [Operation.plan?, reduceCtorEq, Option.some.injEq] at hp <;> subst hp <;> rfl

/-- Two reads of one plan do the same without a binding. -/
theorem perform_eq_of_plan {r' : Operation} (hp : r.plan? clock = some p)
    (hp' : r'.plan? clock = some p) (s : Backend D) :
    perform B clock none r s = perform B clock none r' s := by
  unfold perform
  rw [Operation.perform_none_of_plan hp, Operation.perform_none_of_plan hp']

/-- A read's query answers from the database alone: run on a backend with the same database,
it returns what it returns on `t`. -/
theorem run_query_of_db (hp : r.plan? clock = some p) {s t t' : Backend D}
    {res : Except QueryFault p.α} (hq : Talk.run (answer B) p.query.run t = (res, t'))
    (hdb : t.db = s.db) :
    Talk.run (answer B) p.query.run s = (res, (Talk.run (answer B) p.query.run s).2) := by
  have hfst : (Talk.run (answer B) p.query.run s).1 = res :=
    (run_lookup B (Operation.sat_plan hp).1.talk hdb.symm).trans (congrArg Prod.fst hq)
  exact Prod.ext hfst rfl

/-- Without a binding, a read fails as its query fails on a backend with the same database. -/
theorem perform_read_error (hp : r.plan? clock = some p) {s t t' : Backend D} {e : QueryFault}
    (hq : Talk.run (answer B) p.query.run t = (.error e, t')) (hdb : t.db = s.db) :
    (perform B clock none r s).1 = .error e := by
  unfold perform
  rw [Operation.perform_none_of_plan hp, run_bind_error (run_query_of_db B hp hq hdb)]

/-- Without a binding, a read returns the value its query returns on a backend with the same
database. -/
theorem perform_read_ok (hp : r.plan? clock = some p) {s t t' : Backend D} {v : p.α}
    (hq : Talk.run (answer B) p.query.run t = (.ok v, t')) (hdb : t.db = s.db) :
    (perform B clock none r s).1 = .ok (p.outcome v) := by
  unfold perform
  rw [Operation.perform_none_of_plan hp, run_bind_ok (run_query_of_db B hp hq hdb)]
  exact run_finish B hp v _

end Backend

/-! ## What reads read and writes touch -/

/-- A part of what the database holds: the table list, a table's columns, a table's rows, the
trigger list, one trigger.  Names are normalized. -/
inductive Resource where
  | tables
  | columns (table : String)
  | rows (table : String)
  | triggers
  | trigger (name : String)
deriving DecidableEq

namespace Operation

/-- What a read reads.  The version is no resource: no write changes it. -/
def reads : Operation → List Resource
  | .tableNames _ => [.tables]
  | .columnNames table _ | .describe table _ => [.columns (Name.normalize table)]
  | .triggers _ | .triggerNames _ _ => [.triggers]
  | .trigger name _ _ => [.trigger (Name.normalize name)]
  | .rows table .. | .size table .. => [.rows (Name.normalize table)]
  | _ => []

/-- What a write touches as MySQL runs its statements: creating or dropping a table changes the
table list and the table's columns and rows, installing or dropping a trigger the trigger list
and the trigger, and a row write the table's rows. -/
def touches : Operation → List Resource
  | .createTable table _ | .removeTable table =>
    [.tables, .columns (Name.normalize table), .rows (Name.normalize table)]
  | .installTrigger name .. | .removeTrigger name => [.triggers, .trigger (Name.normalize name)]
  | .insert table .. | .update table .. | .upsert table .. | .delete table _ =>
    [.rows (Name.normalize table)]
  | _ => []

end Operation

namespace Resource

/-- The keys of the reads of a resource, through a binding. -/
def Keyed (b : Binding) (k : CacheKey) : Resource → Prop
  | .tables => k = b.tableNamesKey
  | .columns t | .rows t => ∃ table, Name.normalize table = t ∧ b.TableKey table k
  | .triggers => b.TriggerListKey k
  | .trigger n => ∃ name, Name.normalize name = n ∧ b.TriggerKey name k

variable {b : Binding} {k : CacheKey} {y : Resource}

theorem tableNamesKey_matched (b : Binding) : b.tableNamesKey.MatchedBy b.space.tableListPatterns := by
  have hesc : Glob.escape "schema:table_names" = "schema:table_names" := by decide
  have h := (KeySpace.matchedBy_covering (k := b.tableNamesKey) ⟨rfl, rfl⟩ "schema:table_names").2
    (KeySpace.extends_key (by simp [Category.name]))
  rwa [hesc] at h

/-- The key of a read of a table, however its name is spelled, is matched by the patterns of the
table. -/
theorem matchedBy_tablePatterns_of_keyed {table : String}
    (hy : ∃ t, Name.normalize t = Name.normalize table ∧ b.TableKey t k) :
    k.MatchedBy (b.space.tablePatterns table) := by
  obtain ⟨t, ht, hkey⟩ := hy
  exact Binding.tableKey_matched ht.symm hkey

/-- A write of a table's schema clears the keys of the table list and of the table. -/
theorem matchedBy_table {table : String} (hy : y.Keyed b k)
    (hw : y ∈ [.tables, .columns (Name.normalize table), .rows (Name.normalize table)]) :
    k.MatchedBy (Front.tableWritePatterns table b.space) := by
  refine CacheKey.matchedBy_append.2 ?_
  simp only [List.mem_cons, List.not_mem_nil, or_false] at hw
  rcases hw with rfl | rfl | rfl
  · obtain rfl : k = b.tableNamesKey := hy
    exact .inl (tableNamesKey_matched b)
  all_goals exact .inr (matchedBy_tablePatterns_of_keyed hy)

/-- A write of a trigger clears the keys of the trigger lists and of the trigger. -/
theorem matchedBy_trigger {name : String} (hy : y.Keyed b k)
    (hw : y ∈ [.triggers, .trigger (Name.normalize name)]) :
    k.MatchedBy (b.space.triggerPatterns (some name)) := by
  simp only [List.mem_cons, List.not_mem_nil, or_false] at hw
  rcases hw with rfl | rfl
  · exact Binding.triggerKey_matched rfl (.inr hy)
  · obtain ⟨n, hn, hkey⟩ := hy
    exact Binding.triggerKey_matched hn.symm (.inl hkey)

/-- A row write clears the keys of the table. -/
theorem matchedBy_rows {table : String} (hy : y.Keyed b k) (hw : y ∈ [.rows (Name.normalize table)]) :
    k.MatchedBy (b.space.tablePatterns table) := by
  rw [List.mem_singleton] at hw
  subst hw
  exact matchedBy_tablePatterns_of_keyed hy

end Resource

namespace Operation

variable {b : Binding} {r op : Operation} {k : CacheKey} {y : Resource}

theorem keyed_of_reads (hk : r.readKey b = some k) (hy : y ∈ r.reads) : y.Keyed b k := by
  cases r <;> simp only [reads, List.mem_singleton, List.not_mem_nil] at hy <;> subst hy <;>
    simp only [readKey, Option.some.injEq] at hk <;> subst hk
  case tableNames => rfl
  case columnNames table _ => exact ⟨table, rfl, .inr (.inr (.inl rfl))⟩
  case describe table _ => exact ⟨table, rfl, .inr (.inr (.inr rfl))⟩
  case triggers => exact .inl rfl
  case trigger name database _ => exact ⟨name, rfl, database, rfl⟩
  case triggerNames database _ => exact .inr ⟨database, rfl⟩
  case rows table columns filter asRecords _ =>
    exact ⟨table, rfl, .inl ⟨columns, filter, asRecords, rfl⟩⟩
  case size table column filter _ => exact ⟨table, rfl, .inr (.inl ⟨column, filter, rfl⟩)⟩

/-- A write's patterns match the key of every read of something the write touches. -/
theorem matchedBy_of_touches {ps : List String} (hk : r.readKey b = some k)
    (hop : Front.writePatterns b.space op = some ps) (hr : y ∈ r.reads) (hw : y ∈ op.touches) :
    k.MatchedBy ps := by
  have hy := keyed_of_reads hk hr
  cases op <;> simp only [Front.writePatterns, reduceCtorEq, Option.some.injEq] at hop <;> subst hop
  case createTable => exact Resource.matchedBy_table hy hw
  case removeTable => exact Resource.matchedBy_table hy hw
  case installTrigger => exact Resource.matchedBy_trigger hy hw
  case removeTrigger => exact Resource.matchedBy_trigger hy hw
  case insert | update | upsert | delete => exact Resource.matchedBy_rows hy hw

end Operation

/-! ## The store agrees with the database -/

namespace Backend

variable {D : Type} (B : Database D) (clock : Stamp) (b : Binding) (R : List Operation)

/-- Every live entry of `m` at `now` under the key of a read of `R` decodes to what that read
returns from `s` without a binding. -/
def Agrees (m : ExpiringMap) (now : Nat) (s : Backend D) : Prop :=
  ∀ r ∈ R, ∀ p k text, r.plan? clock = some p → r.readKey b = some k →
    m.get? k.render now = some text →
    ∃ v, p.payload.decode text = .ok v ∧ (perform B clock none r s).1 = .ok (p.outcome v)

/-- The invariant of a session through a binding: the store never fails, and each of its live
entries agrees with the database. -/
structure Coherent (s : Backend D) : Prop where
  reliable : s.stage.store.Reliable
  agrees : Agrees B clock b R s.stage.store.entries s.stage.store.now s

variable {B clock b R} {m : ExpiringMap} {now : Nat} {s s' : Backend D}

theorem agrees_empty (now : Nat) (s : Backend D) : Agrees B clock b R {} now s := by
  intro r _ p k text _ _ h
  simp [ExpiringMap.get?] at h

theorem Agrees.of_db (h : Agrees B clock b R m now s) (hdb : s'.db = s.db) :
    Agrees B clock b R m now s' := by
  intro r hr p k text hp hk hget
  obtain ⟨v, hdec, hdirect⟩ := h r hr p k text hp hk hget
  exact ⟨v, hdec, (perform_read_of_db B hp hdb).trans hdirect⟩

theorem Agrees.filter (h : Agrees B clock b R m now s) (q : String × Entry → Bool) :
    Agrees B clock b R (m.filter q) now s :=
  fun r hr p k text hp hk hget => h r hr p k text hp hk (ExpiringMap.get?_filter hget)

/-- Storing, under the key of a read of `R`, the text of a value that read returns keeps the
agreement, when the value comes back from its text and the keys of `R` tell their reads
apart. -/
theorem Agrees.set (h : Agrees B clock b R m now s) (hkeys : ∀ r ∈ R, r.KeyFaithful)
    (hdigest : ∀ r₁ ∈ R, ∀ r₂ ∈ R,
      r₁.keyFields.digest = r₂.keyFields.digest → r₁.keyFields = r₂.keyFields)
    {r : Operation} {p : ReadPlan} {k : CacheKey} {v : p.α} (hr : r ∈ R)
    (hp : r.plan? clock = some p) (hk : r.readKey b = some k)
    (hdec : p.payload.decode (Json.compact (p.payload.encode v)) = .ok v)
    (hdirect : (perform B clock none r s).1 = .ok (p.outcome v)) (life : Option Nat) :
    Agrees B clock b R (m.set k.render (Json.compact (p.payload.encode v)) life now) now s := by
  intro r' hr' p' k' text hp' hk' hget
  rcases ExpiringMap.get?_set hget with ⟨hkey, rfl⟩ | hold
  · -- the entry just stored: one key, so one plan, and the two reads answer alike
    have hplan := Operation.plan_eq_of_render_eq hk' hk hkey (hdigest r' hr' r hr) (hkeys r' hr')
      (hkeys r hr) clock
    rw [hp', hp, Option.some.injEq] at hplan
    subst hplan
    exact ⟨v, hdec, (congrArg Prod.fst (perform_eq_of_plan B hp' hp s)).trans hdirect⟩
  · exact h r' hr' p' k' text hp' hk' hold

/-- Dropping the keys a write's patterns match keeps the agreement with the database after the
write, when every read whose key no pattern matches answers as before. -/
theorem Agrees.withoutMatching (h : Agrees B clock b R m now s) {ps : List String}
    (hkeep : ∀ r ∈ R, ∀ p k, r.plan? clock = some p → r.readKey b = some k →
      ¬ k.MatchedBy ps →
      (perform B clock none r s').1 = (perform B clock none r s).1) :
    Agrees B clock b R (m.withoutMatching ps now) now s' := by
  intro r hr p k text hp hk hget
  obtain ⟨hold, hnone⟩ := ExpiringMap.get?_withoutMatching hget
  obtain ⟨v, hdec, hdirect⟩ := h r hr p k text hp hk hold
  have hclear : ¬ k.MatchedBy ps := by
    rintro ⟨pat, hpat, hacc⟩
    rw [hnone pat hpat] at hacc
    exact Bool.false_ne_true hacc
  exact ⟨v, hdec, (hkeep r hr p k hp hk hclear).trans hdirect⟩

/-- A step that keeps the database and the store keeps the invariant. -/
theorem Coherent.of_store (h : Coherent B clock b R s) (hdb : s'.db = s.db)
    (hstore : s'.stage.store = s.stage.store) : Coherent B clock b R s' where
  reliable := hstore ▸ h.reliable
  agrees := hstore ▸ h.agrees.of_db hdb

/-- Storing, under the key of a read of `R`, the text of a value that read returns keeps the
invariant, when the value comes back from its text and the keys of `R` tell their reads
apart. -/
theorem Coherent.store (hcoh : Coherent B clock b R s) (hkeys : ∀ r ∈ R, r.KeyFaithful)
    (hdigest : ∀ r₁ ∈ R, ∀ r₂ ∈ R,
      r₁.keyFields.digest = r₂.keyFields.digest → r₁.keyFields = r₂.keyFields)
    {r : Operation} {p : ReadPlan} {k : CacheKey} {v : p.α} (hr : r ∈ R)
    (hp : r.plan? clock = some p) (hk : r.readKey b = some k)
    (hdec : p.payload.decode (Json.compact (p.payload.encode v)) = .ok v)
    (hdirect : (perform B clock none r s).1 = .ok (p.outcome v)) (life : Option Nat) :
    Coherent B clock b R
      (answer B (.storeSet k.render (Json.compact (p.payload.encode v)) life) s).2 := by
  obtain ⟨st', hset, hsettings, hentries⟩ := answer_storeSet B hcoh.reliable k.render
    (Json.compact (p.payload.encode v)) life
  rw [hset]
  refine ⟨hcoh.reliable.of_settings hsettings, ?_⟩
  show Agrees B clock b R st'.entries st'.now _
  rw [WatchedStore.now_of_settings hsettings]
  -- the store took the value, or panicked and kept its entries
  rcases hentries with h | h <;> rw [h]
  · exact (hcoh.agrees.set hkeys hdigest hr hp hk hdec hdirect life).of_db rfl
  · exact hcoh.agrees.of_db rfl

/-- Clearing the keys a write's patterns match, on the backend the write left, keeps the
invariant, when the write left alone every read of `R` that reads nothing it touches. -/
theorem Coherent.clear (hcoh : Coherent B clock b R s) {op : Operation} {ps : List String}
    (hps : Front.writePatterns b.space op = some ps) {s₁ : Backend D}
    (hstore : s₁.stage.store = s.stage.store)
    (htouch : ∀ r ∈ R, (r.plan? clock).isSome → (∀ y ∈ r.reads, y ∉ op.touches) →
      (perform B clock none r
        (s₁.withEntries (s₁.stage.store.entries.withoutMatching ps s₁.stage.store.now))).1 =
        (perform B clock none r s).1) :
    Coherent B clock b R
      (s₁.withEntries (s₁.stage.store.entries.withoutMatching ps s₁.stage.store.now)) := by
  have hrel : s₁.stage.store.Reliable := by
    rw [hstore]
    exact hcoh.reliable
  have hagree : Agrees B clock b R s₁.stage.store.entries s₁.stage.store.now s := by
    rw [hstore]
    exact hcoh.agrees
  refine ⟨hrel, hagree.withoutMatching fun r hr p k hp hk hclear => ?_⟩
  -- a read of something the write touched has its key matched, so its entry is gone
  by_cases hfar : ∀ y ∈ r.reads, y ∉ op.touches
  · exact htouch r hr (by rw [hp]; rfl) hfar
  · simp only [not_forall, not_not] at hfar
    obtain ⟨y, hy, hw⟩ := hfar
    exact absurd (Operation.matchedBy_of_touches hk hps hy hw) hclear

/-! ### One operation keeps the invariant -/

/-- Once a read through the binding has the value the read without one returns, the front's
bookkeeping ends the step as the read without a binding does. -/
theorem finish_step {r : Operation} {p : ReadPlan} (hp : r.plan? clock = some p) {x : Query p.α}
    {v : p.α} {s₁ : Backend D} (hx : Talk.run (answer B) x.run s = (.ok v, s₁))
    (hdirect : (perform B clock none r s).1 = .ok (p.outcome v)) (hdb : s₁.db = s.db)
    (hcoh : Coherent B clock b R s₁) :
    (Talk.run (answer B) (x >>= p.finish).run s).1 = (perform B clock none r s).1 ∧
      (Talk.run (answer B) (x >>= p.finish).run s).2.db = s.db ∧
      Coherent B clock b R (Talk.run (answer B) (x >>= p.finish).run s).2 := by
  have hkeep := run_lookup_keeps B (ReadPlan.sat_finish ((Operation.sat_plan hp).2 v)).talk s₁
  rw [run_bind_ok hx]
  exact ⟨(run_finish B hp v s₁).trans hdirect.symm, hkeep.1.trans hdb,
    hcoh.of_store hkeep.1 hkeep.2⟩

/-- A read of `R` through the binding returns what it returns without one, keeps the database
and keeps the invariant, when a value it reads comes back from its text and the keys of `R`
tell their reads apart. -/
theorem read_step (hcoh : Coherent B clock b R s) (hkeys : ∀ r ∈ R, r.KeyFaithful)
    (hdigest : ∀ r₁ ∈ R, ∀ r₂ ∈ R,
      r₁.keyFields.digest = r₂.keyFields.digest → r₁.keyFields = r₂.keyFields)
    {r : Operation} {p : ReadPlan} (hr : r ∈ R) (hp : r.plan? clock = some p)
    (hcodec : ∀ v, (perform B clock none r s).1 = .ok (p.outcome v) →
      p.payload.decode (Json.compact (p.payload.encode v)) = .ok v) :
    (perform B clock (some b) r s).1 = (perform B clock none r s).1 ∧
      (perform B clock (some b) r s).2.db = s.db ∧
      Coherent B clock b R (perform B clock (some b) r s).2 := by
  obtain ⟨k, hk⟩ := Operation.readKey_of_plan hp b
  have hbound : perform B clock (some b) r s =
      Talk.run (answer B) (b.readThrough k r.override p.payload p.query >>= p.finish).run s := by
    unfold perform
    rw [Operation.perform_some_of_plan hp hk]
  -- the look-up drops the key's entry if it has expired, and nothing else
  have hdrop : Coherent B clock b R
      (s.withEntries (s.stage.store.entries.dropExpired k.render s.stage.store.now)) :=
    ⟨hcoh.reliable, (hcoh.agrees.filter _).of_db rfl⟩
  rw [hbound]
  cases hget : s.stage.store.entries.get? k.render s.stage.store.now with
  | some text =>
    obtain ⟨v, hdec, hdirect⟩ := hcoh.agrees r hr p k text hp hk hget
    exact finish_step hp (run_readThrough_hit B hcoh.reliable hget hdec) hdirect rfl hdrop
  | none =>
    have hmiss : Talk.run (answer B) (b.readThrough k r.override p.payload p.query).run s =
        Talk.run (answer B) (Binding.fill p.query k.render
          (fun v => Json.compact (p.payload.encode v))
          (b.lifetimes.effective k.category r.override)).run
          (s.withEntries (s.stage.store.entries.dropExpired k.render s.stage.store.now)) :=
      run_readThrough_miss B hcoh.reliable hget
    have hkeep := run_lookup_keeps B (Operation.sat_plan hp).1.talk
      (s.withEntries (s.stage.store.entries.dropExpired k.render s.stage.store.now))
    rcases hq : Talk.run (answer B) p.query.run
      (s.withEntries (s.stage.store.entries.dropExpired k.render s.stage.store.now)) with
      ⟨e | v, s₁⟩
    · -- the query fails, and so does the read without a binding, on the same database
      rw [hq] at hkeep
      rw [run_bind_error (hmiss.trans (run_fill_error B _ _ _ hq))]
      exact ⟨(perform_read_error B hp hq (s := s) rfl).symm, hkeep.1,
        hdrop.of_store hkeep.1 hkeep.2⟩
    · -- the query returns what the read without a binding returns, and its text is stored
      rw [hq] at hkeep
      have hcoh₁ : Coherent B clock b R s₁ := hdrop.of_store hkeep.1 hkeep.2
      have hdirect := perform_read_ok B hp hq (s := s) rfl
      exact finish_step hp (hmiss.trans (run_fill_ok B _ _ _ hq)) hdirect
        ((answer_db B rfl s₁).trans hkeep.1)
        (hcoh₁.store hkeys hdigest hr hp hk (hcodec v hdirect)
          (perform_read_ok B hp hq hkeep.1.symm) _)

/-- A write through the binding returns what it returns without one and leaves the database as
that does; it keeps the invariant when, failing, it committed nothing, and, succeeding, it left
alone every read of `R` that reads nothing it touches. -/
theorem write_step (hcoh : Coherent B clock b R s) {op : Operation} {q : Query WriteResult}
    (hq : Front.writeQuery? clock op = some q)
    (hfailed : (perform B clock (some b) op s).1.isOk = false →
      (perform B clock (some b) op s).2.db = s.db)
    (htouch : (perform B clock (some b) op s).1.isOk = true → ∀ r ∈ R, (r.plan? clock).isSome →
      (∀ y ∈ r.reads, y ∉ op.touches) →
      (perform B clock none r (perform B clock (some b) op s).2).1 = (perform B clock none r s).1) :
    (perform B clock (some b) op s).1 = (perform B clock none op s).1 ∧
      (perform B clock (some b) op s).2.db = (perform B clock none op s).2.db ∧
      Coherent B clock b R (perform B clock (some b) op s).2 := by
  obtain ⟨ps, hps⟩ := Front.writePatterns_of_writeQuery hq b.space
  have hbound : perform B clock (some b) op s =
      Talk.run (answer B) (.written <$> Binding.writeThrough ps q).run s := by
    unfold perform
    rw [Front.perform_some_of_writeQuery hq hps]
  have hdirect : perform B clock none op s = Talk.run (answer B) (.written <$> q).run s := by
    unfold perform
    rw [Front.perform_none_of_writeQuery hq]
  have hstore := run_keeps_store B (Front.sat_writeQuery hq).talk s
  rw [hbound] at hfailed htouch ⊢
  rw [hdirect, run_map, run_map]
  rcases hrun : Talk.run (answer B) q.run s with ⟨e | v, s₁⟩ <;> rw [hrun] at hstore
  · -- a failed write changes no entry, and committed nothing
    rw [run_writeThrough_error B hrun]
    rw [run_map, run_writeThrough_error B hrun] at hfailed
    exact ⟨rfl, rfl, hcoh.of_store (hfailed rfl) hstore⟩
  · -- a write that succeeds clears the entries of every read of what it touched
    have hserves : s₁.stage.store.Serves := by
      rw [hstore]
      exact hcoh.reliable.serves
    rw [run_writeThrough_ok B hrun hserves]
    rw [run_map, run_writeThrough_ok B hrun hserves] at htouch
    exact ⟨rfl, rfl, hcoh.clear hps hstore (htouch rfl)⟩

end Backend

/-! ## Sessions -/

namespace Backend

variable {D : Type}

/-- One operation of a session: the backend before it, the operation, what it returned and the
backend it left. -/
structure Step (D : Type) where
  before : Backend D
  op : Operation
  result : Except QueryFault Outcome
  after : Backend D

/-- The steps of a session: each operation runs on the backend the one before left. -/
def session (B : Database D) (clock : Stamp) (binding : Option Binding) :
    List Operation → Backend D → List (Step D)
  | [], _ => []
  | op :: ops, s =>
    ⟨s, op, (perform B clock binding op s).1, (perform B clock binding op s).2⟩ ::
      session B clock binding ops (perform B clock binding op s).2

/-- What a session asks of each step, `R` being the session's operations: a write that fails
committed nothing; a write that succeeds leaves alone every read of the session that reads
nothing it touches; and a value a read takes from the database comes back from the text it is
stored as. -/
structure Step.WellBehaved (B : Database D) (clock : Stamp) (R : List Operation) (x : Step D) :
    Prop where
  failed : (Front.writeQuery? clock x.op).isSome → x.result.isOk = false →
    x.after.db = x.before.db
  untouched : (Front.writeQuery? clock x.op).isSome → x.result.isOk = true →
    ∀ r ∈ R, (r.plan? clock).isSome → (∀ y ∈ r.reads, y ∉ x.op.touches) →
      (perform B clock none r x.after).1 = (perform B clock none r x.before).1
  roundTrip : ∀ p v, x.op.plan? clock = some p →
    (perform B clock none x.op x.before).1 = .ok (p.outcome v) →
      p.payload.decode (Json.compact (p.payload.encode v)) = .ok v

theorem op_mem_of_mem_session {B : Database D} {clock : Stamp} {binding : Option Binding}
    {x : Step D} : ∀ {ops : List Operation} {s : Backend D}, x ∈ session B clock binding ops s →
      x.op ∈ ops
  | [], _, h => nomatch h
  | op :: ops, s, h => by
    rcases List.mem_cons.1 h with rfl | h
    · exact List.mem_cons_self
    · exact List.mem_cons_of_mem op (op_mem_of_mem_session h)

variable {B : Database D} {clock : Stamp} {b : Binding} {R : List Operation} {s : Backend D}

/-- One operation of `R` through the binding, on a coherent backend, returns what it returns
without one, leaves the database as that does and keeps the invariant. -/
theorem step_coherent (hcoh : Coherent B clock b R s) (hkeys : ∀ r ∈ R, r.KeyFaithful)
    (hdigest : ∀ r₁ ∈ R, ∀ r₂ ∈ R,
      r₁.keyFields.digest = r₂.keyFields.digest → r₁.keyFields = r₂.keyFields)
    {op : Operation} (hop : op ∈ R)
    (hwb : Step.WellBehaved B clock R
      ⟨s, op, (perform B clock (some b) op s).1, (perform B clock (some b) op s).2⟩) :
    (perform B clock (some b) op s).1 = (perform B clock none op s).1 ∧
      (perform B clock (some b) op s).2.db = (perform B clock none op s).2.db ∧
      Coherent B clock b R (perform B clock (some b) op s).2 := by
  rcases Operation.plan_or_write clock op with ⟨p, hp⟩ | ⟨q, hq⟩
  · obtain ⟨hres, hdb, hcoh'⟩ := read_step hcoh hkeys hdigest hop hp fun v => hwb.roundTrip p v hp
    exact ⟨hres, hdb.trans (perform_read_keeps B hp s).1.symm, hcoh'⟩
  · have hw : (Front.writeQuery? clock op).isSome := by
      rw [hq]
      rfl
    exact write_step hcoh hq (hwb.failed hw) (hwb.untouched hw)

/-- A session of operations of `R` through the binding, from a coherent backend: every step
returns what its operation returns without a binding from the backend the step starts on, and
leaves the database as that does. -/
theorem session_coherent (hkeys : ∀ r ∈ R, r.KeyFaithful)
    (hdigest : ∀ r₁ ∈ R, ∀ r₂ ∈ R,
      r₁.keyFields.digest = r₂.keyFields.digest → r₁.keyFields = r₂.keyFields) :
    ∀ (ops : List Operation) (s : Backend D), (∀ op ∈ ops, op ∈ R) →
      Coherent B clock b R s →
      (∀ x ∈ session B clock (some b) ops s, x.WellBehaved B clock R) →
      ∀ x ∈ session B clock (some b) ops s, x.result = (perform B clock none x.op x.before).1 ∧
        x.after.db = (perform B clock none x.op x.before).2.db := by
  intro ops
  -- induction on the session, the invariant carried from each step to the next
  induction ops with
  | nil => exact fun _ _ _ _ x hx => nomatch hx
  | cons op ops ih =>
    intro s hops hcoh hsteps x hx
    simp only [session] at hsteps hx
    obtain ⟨hres, hdb, hcoh'⟩ := step_coherent hcoh hkeys hdigest (hops op List.mem_cons_self)
      (hsteps _ List.mem_cons_self)
    rcases List.mem_cons.1 hx with rfl | htail
    · exact ⟨hres, hdb⟩
    · exact ih _ (fun o ho => hops o (List.mem_cons_of_mem op ho)) hcoh'
        (fun y hy => hsteps y (List.mem_cons_of_mem _ hy)) x htail

/-- Sessions through a binding are transparent.  Start from an empty store that never fails,
and let the keys of the session's reads tell them apart.  Then every operation of a session
through the binding returns what the same operation returns without a binding from the backend
the session is in, and leaves the database as that one does, as long as each step is well
behaved: no write fails after committing, no write changes a read of something it does not
touch, and the values read come back from their stored text. -/
theorem session_transparent (B : Database D) (clock : Stamp) (b : Binding) (ops : List Operation)
    (s₀ : Backend D) (hstore : s₀.stage.store.Reliable) (hempty : s₀.stage.store.entries = {})
    (hkeys : ∀ r ∈ ops, r.KeyFaithful)
    (hdigest : ∀ r₁ ∈ ops, ∀ r₂ ∈ ops,
      r₁.keyFields.digest = r₂.keyFields.digest → r₁.keyFields = r₂.keyFields)
    (hsteps : ∀ x ∈ session B clock (some b) ops s₀, x.WellBehaved B clock ops) :
    ∀ x ∈ session B clock (some b) ops s₀, x.result = (perform B clock none x.op x.before).1 ∧
      x.after.db = (perform B clock none x.op x.before).2.db :=
  session_coherent hkeys hdigest ops s₀ (fun _ h => h) ⟨hstore, hempty ▸ agrees_empty _ _⟩
    hsteps

/-- A database of table names: `SHOW TABLES` lists them, and one `CREATE TABLE` adds `t`. -/
def tableList : Database (List String) where
  fetch sql _ tables :=
    if sql = "SHOW TABLES" then .ok ⟨["Tables_in_shop"], tables.map fun t => [.text t]⟩
    else .ok {}
  execute sql _ tables :=
    if sql = "CREATE TABLE IF NOT EXISTS `t` (`id` INT) ENGINE=InnoDB" then
      (.ok ⟨0⟩, "t" :: tables)
    else (.error ⟨.programming, "unknown statement"⟩, tables)

/-- Reading the table list twice, creating table `t` and reading the list again, through a
binding and from an empty store, returns step by step what the same operations return without
the binding. -/
theorem session_transparent_of_table_creation :
    let clock : Stamp := ⟨2024, 1, 2, 3, 4, 5, 0⟩
    let ops : List Operation :=
      [.tableNames none, .tableNames none, .createTable "t" [("id", "INT")], .tableNames none]
    let steps := session tableList clock (some { space := ⟨"sql", "shop"⟩ }) ops ⟨[], {}⟩
    steps.map Step.result = steps.map fun x => (perform tableList clock none x.op x.before).1 := by
  have hfailed : ∀ x ∈ session tableList ⟨2024, 1, 2, 3, 4, 5, 0⟩
      (some { space := ⟨"sql", "shop"⟩ })
      [.tableNames none, .tableNames none, .createTable "t" [("id", "INT")], .tableNames none]
      ⟨[], {}⟩, x.result.isOk = false → x.after.db = x.before.db := by
    decide +kernel
  intro clock ops steps
  have hops : ∀ r ∈ ops, r = .tableNames none ∨ r = .createTable "t" [("id", "INT")] := by
    simp [ops]
  have htransparent := session_transparent tableList clock { space := ⟨"sql", "shop"⟩ } ops
    ⟨[], {}⟩ ⟨rfl, rfl⟩ rfl ?keys ?digest ?steps
  case keys =>
    intro r hr
    rcases hops r hr with rfl | rfl <;> trivial
  case digest =>
    intro r₁ h₁ r₂ h₂ _
    rcases hops r₁ h₁ with rfl | rfl <;> rcases hops r₂ h₂ with rfl | rfl <;> rfl
  case steps =>
    intro x hx
    refine ⟨fun _ => hfailed x hx, fun hw _ r hr hread hfar => ?_, fun p v hp _ => ?_⟩
    · -- the one write creates a table, which every read of the session reads
      rcases hops x.op (op_mem_of_mem_session hx) with hop | hop <;> rw [hop] at hw hfar
      · exact absurd hw (by decide)
      · rcases hops r hr with rfl | rfl
        · exact absurd List.mem_cons_self (hfar .tables List.mem_cons_self)
        · exact absurd hread (by decide)
    · rcases hops x.op (op_mem_of_mem_session hx) with hop | hop <;>
        simp only [hop, Operation.plan?, reduceCtorEq, Option.some.injEq] at hp
      subst hp
      exact Payload.decode_names v
  exact List.map_congr_left fun x hx => (htransparent x hx).1

end Backend

end QueryShield
