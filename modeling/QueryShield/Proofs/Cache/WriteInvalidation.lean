import Mathlib
import QueryShield.Proofs.StatementSafety

/-!
# What a write through the cache leaves in the store

A write through a cache binding runs its statements and deletes the store keys matching the
write's patterns only when every statement succeeded (`Binding.writeThrough`).  On a stage
whose store answers scans and deletes, `Front.perform_write_store` states what that design
gives for every write operation of the front: the write returns what it returns without the
binding and sends the same statements; when it succeeds no live key matches one of its
patterns; and when it fails the store is exactly as it was, even when some of its statements
were committed before the failure.

`Front.failed_install_keeps_triggers` shows the failing case at work: installing a trigger drops
the old trigger, the creation fails, and a read of the triggers through the cache still returns
the dropped one while the database no longer has it.

The proof follows the layers: a deletion removes one key from every scan
(`ExpiringMap.scan_delete`); deleting the keys a scan returned clears the pattern and keeps
every cleared pattern cleared (`run_deleteMatching`, then `run_deletePatterns` by a run lemma
over the patterns); every write of the front is its statements, alone without a binding and
followed by the deletions through one (`Front.perform_none_of_writeQuery`,
`Front.perform_some_of_writeQuery`); the statements make no store request and the deletions
send nothing to the pool, so each leaves the other's part of the stage as it found it
(`Stage.run_store`, `Stage.run_statements`).
-/

namespace QueryShield

namespace ExpiringMap

/-- Removing a key removes it from the live keys and keeps the others in order. -/
theorem keys_delete (m : ExpiringMap) (k : String) (now : Nat) :
    (m.delete k).1.keys now = (m.keys now).filter (· != k) := by
  simp only [delete, keys, entries_filter, List.filter_map, List.filter_filter]
  congr 1
  apply List.filter_congr
  intro e _
  simp [Bool.and_comm]

/-- Removing a key removes it from every scan. -/
theorem scan_delete (m : ExpiringMap) (k p : String) (now : Nat) :
    (m.delete k).1.scan p now = (m.scan p now).filter (· != k) := by
  simp only [scan, keys_delete, List.filter_filter]
  apply List.filter_congr
  intro e _
  simp [Bool.and_comm]

end ExpiringMap

namespace WatchedStore

/-- The store answers scans and deletes: it is up and refuses neither. -/
def Serves (st : WatchedStore) : Prop :=
  st.down = false ∧ StoreCommand.scan ∉ st.refusing ∧ StoreCommand.delete ∉ st.refusing

instance : DecidablePred Serves := fun _ => inferInstanceAs (Decidable (_ ∧ _ ∧ _))

variable {st : WatchedStore}

theorem scan_of_serves (h : st.Serves) (p : String) :
    st.scan p = .ok (st.entries.scan p st.now) := by
  simp [scan, allow, h.1, h.2.1]

theorem delete_of_serves (h : st.Serves) (k : String) :
    st.delete k = .ok ({ st with entries := (st.entries.delete k).1 }, (st.entries.delete k).2) := by
  simp [delete, allow, h.1, h.2.2]

/-- What the commands leave alone: whether the store is up, the commands it refuses, and its
clock. -/
def settings (st : WatchedStore) : Bool × List StoreCommand × Instant :=
  (st.down, st.refusing, st.clock)

/-! The commands change the entries or the panic, never the settings. -/

theorem settings_of_get {st' : WatchedStore} {k : String} {v : Option String}
    (h : st.get k = .ok (v, st')) : st'.settings = st.settings := by
  unfold get at h
  cases ha : st.allow .get with
  | error f => simp [ha] at h
  | ok u =>
    simp only [ha, bind, Except.bind, pure, Except.pure, Except.ok.injEq, Prod.mk.injEq] at h
    rw [← h.2]
    rfl

theorem settings_of_set {st' : WatchedStore} {k v : String} {life : Option Nat}
    (h : st.set k v life = .ok st') : st'.settings = st.settings := by
  unfold set at h
  cases ha : st.allow .set with
  | error f => simp [ha, bind, Except.bind] at h
  | ok u =>
    cases hp : st.panicOf life <;>
      simp only [ha, hp, bind, Except.bind, pure, Except.pure, Except.ok.injEq] at h <;>
      rw [← h] <;> rfl

theorem settings_of_delete {st' : WatchedStore} {k : String} {existed : Bool}
    (h : st.delete k = .ok (st', existed)) : st'.settings = st.settings := by
  unfold delete at h
  cases ha : st.allow .delete with
  | error f => simp [ha] at h
  | ok u =>
    simp only [ha, bind, Except.bind, pure, Except.pure, Except.ok.injEq, Prod.mk.injEq] at h
    rw [← h.1]
    rfl

end WatchedStore

namespace Stage

/-- No request changes the store's settings: it stays up or down, refuses what it refused, and
its clock does not move, since time does not pass during a rehearsal. -/
theorem answer_settings (r : Request) (s : Stage) :
    (answer r s).2.store.settings = s.store.settings := by
  cases r with
  | fetch sql params =>
    simp only [answer]
    split_ifs <;> rfl
  | execute sql params =>
    simp only [answer]
    split_ifs <;> rfl
  | storeGet key =>
    simp only [answer]
    split
    · exact WatchedStore.settings_of_get ‹_›
    · rfl
  | storeSet key value life =>
    simp only [answer]
    split
    · exact WatchedStore.settings_of_set ‹_›
    · rfl
  | storeDelete key =>
    simp only [answer]
    split
    · exact WatchedStore.settings_of_delete ‹_›
    · rfl
  | storeScan pattern => rfl
  | knownVersion => rfl
  | noteVersion v => rfl

/-- No conversation changes the store's settings. -/
theorem run_settings {α : Type} (t : Talk α) (s : Stage) :
    (Stage.run t s).2.store.settings = s.store.settings :=
  (Talk.sat_true t).run_inv (I := fun s' => s'.store.settings = s.store.settings)
    (fun r s' _ hs' => (answer_settings r s').trans hs') rfl

/-- A request that is not a store command leaves the store as it is. -/
theorem answer_store {r : Request} (hr : r.isStore = false) (s : Stage) :
    (answer r s).2.store = s.store := by
  cases r <;> simp only [Request.isStore, Bool.true_eq_false] at hr <;> simp only [answer] <;>
    split_ifs <;> rfl

/-- A request that sends no statement to the pool leaves the statement log as it is. -/
theorem answer_statements {r : Request} (hr : r.poolText? = none) (s : Stage) :
    (answer r s).2.statements = s.statements := by
  cases r <;> simp only [Request.poolText?, reduceCtorEq] at hr <;> simp only [answer] <;>
    split <;> rfl

/-- A conversation that makes no store request leaves the store as it found it. -/
theorem run_store {α ε : Type} {Q : α → Prop} {x : ExceptT ε Talk α}
    (h : Query.Sat (fun r => r.isStore = false) Q x) (s : Stage) :
    (Stage.run x.run s).2.store = s.store :=
  h.run_inv (I := fun s' => s'.store = s.store) (fun _ s' hr hs' => (answer_store hr s').trans hs')
    rfl

/-- A conversation that sends nothing to the pool leaves the statement log as it found it. -/
theorem run_statements {α ε : Type} {Q : α → Prop} {x : ExceptT ε Talk α}
    (h : Query.Sat (Statements.PoolOk fun _ => False) Q x) (s : Stage) :
    (Stage.run x.run s).2.statements = s.statements :=
  h.run_inv (I := fun s' => s'.statements = s.statements)
    (fun _ s' hr hs' =>
      (answer_statements (Option.eq_none_iff_forall_not_mem.2 hr) s').trans hs') rfl

end Stage

namespace Binding

open Query WatchedStore

/-- Deleting the keys of a pattern from a store that serves succeeds, clears the pattern and
keeps every cleared pattern cleared. -/
theorem run_deleteMatching {s : Stage} (hs : s.store.Serves) (p : String) :
    ∃ n s', Stage.run (deleteMatching p).run s = (.ok n, s') ∧ s'.store.Serves ∧
      s'.store.entries.scan p s.store.now = [] ∧
      ∀ q, s.store.entries.scan q s.store.now = [] → s'.store.entries.scan q s.store.now = [] := by
  unfold deleteMatching Stage.run
  have hscan : Talk.run Stage.answer
      (ExceptT.mk (Talk.request (.storeScan p)) : ExceptT StoreFault Talk _).run s =
        (.ok (s.store.entries.scan p s.store.now), s) := by
    show Talk.run Stage.answer (Talk.request (.storeScan p)) s = _
    rw [run_request]
    simp only [Stage.answer, scan_of_serves hs]
    rfl
  rw [run_bind_ok hscan]
  -- each deletion takes its key out of the scan; the keys of the scan are still to come
  refine run_foldlM (I := fun rest s' => s'.store.Serves ∧
      (∀ k ∈ s'.store.entries.scan p s.store.now, k ∈ rest) ∧
      ∀ q, s.store.entries.scan q s.store.now = [] → s'.store.entries.scan q s.store.now = [])
    ?_ _ 0 s ⟨hs, fun k hk => hk, fun q hq => hq⟩ |>.imp fun n => Exists.imp fun s' h =>
      ⟨h.1, h.2.1, List.eq_nil_iff_forall_not_mem.2 fun k hk => by simpa using h.2.2.1 k hk,
        h.2.2.2⟩
  rintro key rest n s' ⟨hserves, hrest, hcleared⟩
  have hdel : Talk.run Stage.answer
      (ExceptT.mk (Talk.request (.storeDelete key)) : ExceptT StoreFault Talk Bool).run s' =
        (.ok (s'.store.entries.delete key).2,
          { s' with store := { s'.store with entries := (s'.store.entries.delete key).1 } }) := by
    show Talk.run Stage.answer (Talk.request (.storeDelete key)) s' = _
    rw [run_request]
    simp only [Stage.answer, delete_of_serves hserves]
    rfl
  refine ⟨_, _, (run_bind_ok hdel).trans rfl, hserves, fun k hk => ?_, fun q hq => ?_⟩
  · simp only [ExpiringMap.scan_delete, List.mem_filter, bne_iff_ne, ne_eq] at hk
    exact (List.mem_cons.1 (hrest k hk.1)).resolve_left hk.2
  · simp [ExpiringMap.scan_delete, hcleared q hq]

theorem run_deletePatterns {s : Stage} (hs : s.store.Serves) (patterns : List String) :
    ∃ n s', Stage.run (deletePatterns patterns).run s = (.ok n, s') ∧ s'.store.Serves ∧
      ∀ p ∈ patterns, s'.store.entries.scan p s.store.now = [] := by
  unfold deletePatterns
  -- a pattern is cleared once its turn has come, and stays cleared after; the clock stays
  refine run_foldlM (I := fun rest s' => s'.store.Serves ∧ s'.store.now = s.store.now ∧
      ∀ p ∈ patterns, p ∉ rest → s'.store.entries.scan p s.store.now = [])
    ?_ _ 0 s ⟨hs, rfl, fun p hp hnot => absurd hp hnot⟩ |>.imp fun n => Exists.imp fun s' h =>
      ⟨h.1, h.2.1, fun p hp => h.2.2.2 p hp List.not_mem_nil⟩
  rintro p rest n s' ⟨hserves, hnow, hdone⟩
  obtain ⟨m, s'', hrun, hserves', hcleared, hkeep⟩ := run_deleteMatching hserves p
  have hclock : s''.store.now = s'.store.now := by
    have := Stage.run_settings (deleteMatching p).run s'
    rw [hrun] at this
    exact congrArg (fun x => x.2.2.secs) this
  rw [hnow] at hcleared hkeep
  refine ⟨_, _, (run_bind_ok hrun).trans rfl, hserves', hclock.trans hnow, fun q hq hnot => ?_⟩
  by_cases hqp : q = p
  · subst hqp
    exact hcleared
  · exact hkeep q (hdone q hq (by simp [hqp, hnot]))

/-- What a write through the cache did, beside the write alone that ran from `before` to
`direct`: it has the write's result and sent the write's statements; when the write succeeded,
no live key matches one of the patterns; when it failed, the store is as it was. -/
def Invalidates {α : Type} (patterns : List String) (before : Stage)
    (direct outcome : Except QueryFault α × Stage) : Prop :=
  outcome.1 = direct.1 ∧ outcome.2.statements = direct.2.statements ∧
    (∀ v, outcome.1 = .ok v → ∀ p ∈ patterns, outcome.2.store.entries.scan p before.store.now = []) ∧
    ∀ e, outcome.1 = .error e → outcome.2.store = before.store

theorem Invalidates.map {α β : Type} {patterns : List String} {g : α → β} {x y : Query α}
    {s : Stage} (h : Invalidates patterns s (Stage.run x.run s) (Stage.run y.run s)) :
    Invalidates patterns s (Stage.run (g <$> x).run s) (Stage.run (g <$> y).run s) := by
  unfold Stage.run at h ⊢
  rw [run_map, run_map]
  obtain ⟨hres, hlog, hok, herr⟩ := h
  rcases hrun : Talk.run Stage.answer y.run s with ⟨e | v, s'⟩ <;>
    rw [hrun] at hres hlog hok herr
  · exact ⟨congrArg (Except.map g) hres, hlog, fun _ hv => (nomatch hv), fun _ _ => herr e rfl⟩
  · exact ⟨congrArg (Except.map g) hres, hlog, fun _ _ => hok v rfl, fun _ he => nomatch he⟩

/-- A write whose statements make no store request, through the cache: when it succeeds its
patterns are cleared, and when it fails the store is untouched. -/
theorem run_writeThrough {α : Type} {Q : α → Prop} {write : Query α}
    (hwrite : Sat (fun r => r.isStore = false) Q write) {s : Stage} (hs : s.store.Serves)
    (patterns : List String) :
    Invalidates patterns s (Stage.run write.run s)
      (Stage.run (writeThrough patterns write).run s) := by
  have hkeep := Stage.run_store hwrite s
  unfold writeThrough Stage.run at *
  rcases hrun : Talk.run Stage.answer write.run s with ⟨e | v, s₁⟩ <;> rw [hrun] at hkeep
  · rw [run_bind_error hrun]
    exact ⟨rfl, rfl, fun _ hv => (nomatch hv), fun _ _ => hkeep⟩
  · obtain ⟨n, s₂, hdel, -, hcleared⟩ := run_deletePatterns (hkeep ▸ hs) patterns
    rw [hkeep] at hcleared
    -- the deletions send nothing to the pool
    have hlog := Stage.run_statements
      (Front.sat_deletePatterns (fun _ => Statements.poolOk_of_poolText) patterns) s₁
    rw [hdel] at hlog
    have hlift : Talk.run Stage.answer
        (ExceptT.lift (deletePatterns patterns).run : Query (Except StoreFault Nat)).run s₁ =
          (.ok (.ok n), s₂) := by
      rw [run_lift]
      exact congrArg (fun r => (Except.ok r.1, r.2)) hdel
    rw [run_bind_ok hrun, run_bind_ok hlift]
    exact ⟨rfl, hlog, fun _ _ => hcleared, fun _ he => nomatch he⟩

end Binding

namespace Statements

open Query

theorem sat_installTrigger (name table timing body : String) :
    Sat (fun r => r.isStore = false) (fun _ => True) (installTrigger name table timing body) := by
  unfold installTrigger
  refine (sat_guard fun _ _ => trivial).bind fun statement _ => ?_
  refine ((sat_removeTrigger name).mono (fun _ hr => hr.1) fun _ h => h).bind fun _ _ => ?_
  exact (sat_execute (P := fun r => r.isStore = false) rfl).bind fun _ _ => sat_pure trivial

end Statements

namespace Front

open Query Statements Binding

/-- The patterns a write invalidates through a binding whose keys live in `space`; none for a
read. -/
def writePatterns (space : KeySpace) : Operation → Option (List String)
  | .createTable table _ | .removeTable table => some (tableWritePatterns table space)
  | .installTrigger name .. | .removeTrigger name => some (space.triggerPatterns (some name))
  | .insert table .. | .update table .. | .upsert table .. | .delete table _ =>
    some (space.tablePatterns table)
  | _ => none

/-- The statements of a write; none for a read. -/
def writeQuery? (clock : Stamp) : Operation → Option (Query WriteResult)
  | .createTable table columns => some (createTable table columns)
  | .removeTable table => some (removeTable table)
  | .installTrigger name table timing body => some (installTrigger name table timing body)
  | .removeTrigger name => some (removeTrigger name)
  | .insert table rows columns => some (insert clock table rows columns)
  | .update table values columns filter => some (update clock table values columns filter)
  | .upsert table rows columns => some (upsert clock table rows columns)
  | .delete table filter => some (delete clock table filter)
  | _ => none

section Writes

variable {clock : Stamp} {op : Operation} {q : Query WriteResult}

theorem writeQuery_of_writePatterns {space : KeySpace} {patterns : List String}
    (hop : writePatterns space op = some patterns) (clock : Stamp) :
    ∃ q, writeQuery? clock op = some q := by
  cases op <;> simp only [writePatterns, reduceCtorEq] at hop <;> exact ⟨_, rfl⟩

theorem writePatterns_of_writeQuery (h : writeQuery? clock op = some q) (space : KeySpace) :
    ∃ patterns, writePatterns space op = some patterns := by
  cases op <;> simp only [writeQuery?, reduceCtorEq] at h <;> exact ⟨_, rfl⟩

/-- Without a binding a write is its statements. -/
theorem perform_none_of_writeQuery (h : writeQuery? clock op = some q) :
    perform clock none op = .written <$> q := by
  cases op <;> simp only [writeQuery?, reduceCtorEq, Option.some.injEq] at h <;> subst h <;> rfl

/-- Through a binding a write runs its statements, then clears its patterns. -/
theorem perform_some_of_writeQuery (h : writeQuery? clock op = some q) {b : Binding}
    {patterns : List String} (hop : writePatterns b.space op = some patterns) :
    perform clock (some b) op = .written <$> writeThrough patterns q := by
  cases op <;> simp only [writeQuery?, writePatterns, reduceCtorEq, Option.some.injEq] at h hop <;>
    subst h hop <;> rfl

/-- The statements of a write make no store request. -/
theorem sat_writeQuery (h : writeQuery? clock op = some q) :
    Sat (fun r => r.isStore = false) (fun _ => True) q := by
  have direct : ∀ {x : Query WriteResult}, Sat (Direct Inert) (fun _ => True) x →
      Sat (fun r => r.isStore = false) (fun _ => True) x :=
    fun h => h.mono (fun _ hr => hr.1) fun _ h => h
  cases op <;> simp only [writeQuery?, reduceCtorEq, Option.some.injEq] at h <;> subst h
  case createTable table columns => exact direct (sat_createTable table columns)
  case removeTable table => exact direct (sat_removeTable table)
  case installTrigger name table timing body => exact sat_installTrigger name table timing body
  case removeTrigger name => exact direct (sat_removeTrigger name)
  case insert table rows columns => exact direct (sat_insert clock table rows columns)
  case update table values columns filter => exact direct (sat_update clock table values columns filter)
  case upsert table rows columns => exact direct (sat_upsert clock table rows columns)
  case delete table filter => exact direct (sat_delete clock table filter)

end Writes

/-- A write through a binding, against a store that serves scans and deletes, returns what the
write alone returns and sends the same statements. When it succeeds, no live entry matches one
of its patterns; when it fails, the store is as it was, so entries derived from what the write
committed before failing survive. -/
theorem perform_write_store (clock : Stamp) (b : Binding) {op : Operation}
    {patterns : List String} (hop : writePatterns b.space op = some patterns) {s : Stage}
    (hs : s.store.Serves) :
    let bound := Stage.run (perform clock (some b) op).run s
    let direct := Stage.run (perform clock none op).run s
    bound.1 = direct.1 ∧ bound.2.statements = direct.2.statements ∧
      (∀ v, bound.1 = .ok v → ∀ p ∈ patterns, bound.2.store.entries.scan p s.store.now = []) ∧
      ∀ e, bound.1 = .error e → bound.2.store = s.store := by
  obtain ⟨q, hq⟩ := writeQuery_of_writePatterns hop clock
  show Invalidates patterns s (Stage.run (perform clock none op).run s)
    (Stage.run (perform clock (some b) op).run s)
  rw [perform_none_of_writeQuery hq, perform_some_of_writeQuery hq hop]
  exact (run_writeThrough (sat_writeQuery hq) hs patterns).map

/-- A trigger installation whose `CREATE TRIGGER` fails after its `DROP TRIGGER` committed
keeps the cached trigger list: a bound read then returns the dropped trigger, while a direct
read over the same database returns none. -/
theorem failed_install_keeps_triggers :
    let b : Binding := { space := ⟨"sql", "shop"⟩ }
    let clock : Stamp := ⟨2024, 1, 2, 3, 4, 5, 0⟩
    let before : Fetched := ⟨["TRIGGER_NAME", "ACTION_STATEMENT"], [[.text "t", .text "SET NEW.a = 1"]]⟩
    let after : Fetched := ⟨["TRIGGER_NAME", "ACTION_STATEMENT"], []⟩
    let refuse : PoolFault := ⟨.programming, "scripted failure"⟩
    let s₀ : Stage := { pool := ({} : ScriptedPool).respond Statements.triggersOfCurrent before }
    let s₁ := (Stage.run (perform clock (some b) (.triggers none)).run s₀).2
    let install := Stage.run (perform clock (some b)
      (.installTrigger "t" "users" "AFTER INSERT" "SET NEW.a = 2")).run
      { s₁ with pool := s₁.pool.failWritesMatching "CREATE TRIGGER" refuse }
    let s₃ := { install.2 with pool := install.2.pool.respond Statements.triggersOfCurrent after }
    install.1.isOk = false ∧
      (Stage.run (perform clock (some b) (.triggers none)).run s₃).1 =
        .ok (.triggers [("t", "SET NEW.a = 1")]) ∧
      (Stage.run (perform clock none (.triggers none)).run s₃).1 = .ok (.triggers []) := by
  decide +kernel

end Front

end QueryShield
