import Mathlib
import QueryShield.Proofs.Cache.WriteInvalidation
import QueryShield.Proofs.Cache.ExpiringStore

/-!
# The protocols of the cache binding

A read through the cache and a write through it each follow a fixed protocol, whatever the
store and the database answer.  This module states both as equations between runs on a stage.

A write (`Binding.writeThrough`) runs the write once and returns its outcome, whatever the store
does afterwards.  A failed write is all that happens.  After a successful one, the keys of the
patterns are deleted from where the write left the stage, and on a store that answers scans and
deletes, exactly the live keys matching a pattern lose their entries (`run_writeThrough_eq`).

A read (`Binding.readThrough`) looks its key up.  A failed look-up leaves the read to the fetch
alone.  A payload that decodes is the answer, and nothing else happens.  A payload that does not
decode is an error under strict decoding; otherwise it is deleted and the read goes on as on a
miss.  On a miss the fetch runs once, and its value, when it has one, is stored under the key
with the key's lifetime (`run_readThrough_eq`).

The store's part is computed exactly: deleting the keys a scan returned filters the entries by
key (`run_deleteKeys`), and successive patterns compose (`withoutMatching_cons`).
-/

namespace QueryShield

/-! ## Requests of sequenced conversations -/

namespace Talk

variable {α β σ : Type} (answer : (r : Request) → σ → r.Answer × σ)

/-- The requests of a sequence are those of the first conversation, then those of the one its
result chooses. -/
theorem requests_bind (t : Talk α) (f : α → Talk β) (s : σ) :
    requests answer (bind t f) s =
      requests answer t s ++ requests answer (f (run answer t s).1) (run answer t s).2 := by
  induction t generalizing s with
  | done a => rfl
  | ask r next ih =>
    show r :: requests answer (bind (next (answer r s).1) f) (answer r s).2 = _
    rw [ih]
    rfl

end Talk

section Requests

variable {α β ε σ : Type} {answer : (r : Request) → σ → r.Answer × σ}

theorem requests_bind_ok {x : ExceptT ε Talk α} {f : α → ExceptT ε Talk β} {s s' : σ} {a : α}
    (h : Talk.run answer x.run s = (.ok a, s')) :
    Talk.requests answer (x >>= f).run s =
      Talk.requests answer x.run s ++ Talk.requests answer (f a).run s' := by
  show Talk.requests answer (Talk.bind x.run _) s = _
  rw [Talk.requests_bind, h]
  rfl

theorem requests_bind_error {x : ExceptT ε Talk α} {f : α → ExceptT ε Talk β} {s s' : σ}
    {e : ε} (h : Talk.run answer x.run s = (.error e, s')) :
    Talk.requests answer (x >>= f).run s = Talk.requests answer x.run s := by
  show Talk.requests answer (Talk.bind x.run _) s = _
  rw [Talk.requests_bind, h]
  exact List.append_nil _

theorem run_ask (r : Request) (s : σ) :
    Talk.run answer (Query.ask r).run s = (.ok (answer r s).1, (answer r s).2) := by
  unfold Query.ask
  rw [run_lift, run_request]

theorem requests_ask (r : Request) (s : σ) :
    Talk.requests answer (Query.ask r).run s = [r] := by
  unfold Query.ask
  show Talk.requests answer (Talk.bind (Talk.request r) _) s = _
  rw [Talk.requests_bind]
  rfl

theorem requests_lift (t : Talk α) (s : σ) :
    Talk.requests answer (ExceptT.lift t : ExceptT ε Talk α).run s = Talk.requests answer t s := by
  show Talk.requests answer (Talk.bind t _) s = _
  rw [Talk.requests_bind]
  exact List.append_nil _

end Requests

/-! ## Deleting by key and by pattern -/

namespace ExpiringMap

/-- The map with the entries of the keys that pass a test. -/
def filterKeys (m : ExpiringMap) (f : String → Bool) : ExpiringMap :=
  m.filter fun x => f x.1

/-- The map without the entries of the live keys that match one of the patterns. -/
def withoutMatching (m : ExpiringMap) (patterns : List String) (now : Nat) : ExpiringMap :=
  m.filterKeys fun k => !(patterns.any fun p => (m.scan p now).contains k)

section FilterKeys

variable (m : ExpiringMap) (f g : String → Bool) (now : Nat)

theorem keys_filterKeys : (m.filterKeys f).keys now = (m.keys now).filter f := by
  simp only [filterKeys, keys, entries_filter, List.filter_map, List.filter_filter]
  congr 1
  apply List.filter_congr
  intro x _
  simp [Bool.and_comm]

theorem scan_filterKeys (p : String) : (m.filterKeys f).scan p now = (m.scan p now).filter f := by
  simp only [scan, keys_filterKeys, List.filter_filter]
  apply List.filter_congr
  intro x _
  simp [Bool.and_comm]

theorem lookup_filterKeys (k : String) :
    (m.filterKeys f).entries.lookup k = if f k then m.entries.lookup k else none :=
  lookup_filter_key f m.entries

theorem filterKeys_filterKeys :
    (m.filterKeys f).filterKeys g = m.filterKeys fun k => f k && g k := by
  ext1
  simp only [filterKeys, entries_filter, List.filter_filter]
  apply List.filter_congr
  intro x _
  exact Bool.and_comm _ _

theorem filterKeys_true : m.filterKeys (fun _ => true) = m := by
  ext1
  simp [filterKeys]

end FilterKeys

/-- Clearing one pattern and then the others clears them all at once: a key the first pattern
cleared is no longer live for the others, and every other key is live for them as before. -/
theorem withoutMatching_cons (m : ExpiringMap) (p : String) (ps : List String) (now : Nat) :
    (m.withoutMatching [p] now).withoutMatching ps now = m.withoutMatching (p :: ps) now := by
  unfold withoutMatching
  rw [filterKeys_filterKeys]
  congr 1
  funext k
  simp only [scan_filterKeys, List.any_cons, List.any_nil, Bool.or_false]
  apply Bool.eq_iff_iff.2
  by_cases hp : k ∈ m.scan p now <;>
    simp [hp, List.mem_filter]

theorem withoutMatching_nil (m : ExpiringMap) (now : Nat) : m.withoutMatching [] now = m := by
  simp [withoutMatching, filterKeys_true]

/-- No live key matching one of the patterns is left. -/
theorem scan_withoutMatching {patterns : List String} {p : String} (hp : p ∈ patterns)
    (m : ExpiringMap) (now : Nat) : (m.withoutMatching patterns now).scan p now = [] := by
  rw [withoutMatching, scan_filterKeys, List.filter_eq_nil_iff]
  intro k hk
  have hany : (patterns.any fun p => (m.scan p now).contains k) = true :=
    List.any_eq_true.2 ⟨p, hp, List.contains_iff_mem.2 hk⟩
  rw [hany]
  decide

/-- Every other key keeps its entry, value and deadline alike. -/
theorem lookup_withoutMatching (m : ExpiringMap) (patterns : List String) (now : Nat)
    (k : String) :
    (m.withoutMatching patterns now).entries.lookup k =
      if patterns.any (fun p => (m.scan p now).contains k) then none
      else m.entries.lookup k := by
  rw [withoutMatching, lookup_filterKeys]
  cases patterns.any (fun p => (m.scan p now).contains k) <;> rfl

theorem delete_fst_eq (m : ExpiringMap) (k : String) :
    (m.delete k).1 = m.filterKeys (· != k) := rfl

end ExpiringMap

namespace WatchedStore

/-- A look-up that finds a value leaves the store as it was. -/
theorem get_of_found {st st' : WatchedStore} {k text : String}
    (h : st.get k = .ok (some text, st')) : st' = st := by
  unfold get at h
  cases ha : st.allow .get with
  | error f => simp [ha] at h
  | ok u =>
    simp only [ha, ExpiringMap.get, bind, Except.bind, pure, Except.pure, Except.ok.injEq,
      Prod.mk.injEq] at h
    obtain ⟨hv, rfl⟩ := h
    show { st with entries := st.entries.dropExpired k st.now } = st
    rw [ExpiringMap.dropExpired_of_get (v := text) hv]

end WatchedStore

namespace Binding

open Query WatchedStore ExpiringMap

/-- Deleting keys one after the other from a store that serves drops exactly their entries. -/
theorem run_deleteKeys {s : Stage} (hs : s.store.Serves) (keys : List String) (n : Nat) :
    ∃ n', Stage.run (keys.foldlM (fun n key => do
        let existed ← ExceptT.mk (Talk.request (.storeDelete key))
        pure (if existed then n + 1 else n)) n).run s =
      (.ok n', { s with store := { s.store with
        entries := s.store.entries.filterKeys fun k => !keys.contains k } }) := by
  induction keys generalizing s n with
  | nil =>
    refine ⟨n, ?_⟩
    simp only [List.foldlM_nil, List.contains_nil, Bool.not_false, filterKeys_true]
    rfl
  | cons key keys ih =>
    let s₁ : Stage := { s with store := { s.store with entries := (s.store.entries.delete key).1 } }
    have hdel : Talk.run Stage.answer
        (ExceptT.mk (Talk.request (.storeDelete key)) : ExceptT StoreFault Talk Bool).run s =
          (.ok (s.store.entries.delete key).2, s₁) := by
      show Talk.run Stage.answer (Talk.request (.storeDelete key)) s = _
      rw [run_request]
      simp only [Stage.answer, delete_of_serves hs]
      rfl
    obtain ⟨n', hrun⟩ := ih (s := s₁) hs (if (s.store.entries.delete key).2 then n + 1 else n)
    refine ⟨n', ?_⟩
    unfold Stage.run at hrun ⊢
    rw [List.foldlM_cons, run_bind_ok (run_bind_ok hdel), hrun]
    -- the key deleted first, then the others: together the keys of the whole list
    have hkeys : s₁.store.entries.filterKeys (fun k => !keys.contains k) =
        s.store.entries.filterKeys fun k => !(key :: keys).contains k := by
      simp only [s₁, delete_fst_eq, filterKeys_filterKeys, List.contains_cons]
      congr 1
      funext k
      simp only [bne, Bool.not_or]
    rw [hkeys]

/-- Deleting the keys of a pattern from a store that serves drops exactly the entries of the
live keys that match it. -/
theorem run_deleteMatching_eq {s : Stage} (hs : s.store.Serves) (p : String) :
    ∃ n, Stage.run (deleteMatching p).run s =
      (.ok n, { s with store := { s.store with
        entries := s.store.entries.withoutMatching [p] s.store.now } }) := by
  have hscan : Talk.run Stage.answer
      (ExceptT.mk (Talk.request (.storeScan p)) : ExceptT StoreFault Talk _).run s =
        (.ok (s.store.entries.scan p s.store.now), s) := by
    show Talk.run Stage.answer (Talk.request (.storeScan p)) s = _
    rw [run_request]
    simp only [Stage.answer, scan_of_serves hs]
    rfl
  obtain ⟨n, hrun⟩ := run_deleteKeys hs (s.store.entries.scan p s.store.now) 0
  refine ⟨n, ?_⟩
  unfold deleteMatching Stage.run at *
  rw [run_bind_ok hscan, hrun]
  simp only [withoutMatching, List.any_cons, List.any_nil, Bool.or_false]

/-- Deleting the keys of one pattern after the other, from a store that serves. -/
theorem run_deletePatterns_from {s : Stage} (hs : s.store.Serves) (patterns : List String)
    (n : Nat) :
    ∃ n', Stage.run (patterns.foldlM (fun n p => do pure (n + (← deleteMatching p))) n).run s =
      (.ok n', { s with store := { s.store with
        entries := s.store.entries.withoutMatching patterns s.store.now } }) := by
  induction patterns generalizing s n with
  | nil =>
    refine ⟨n, ?_⟩
    simp only [List.foldlM_nil, withoutMatching_nil]
    rfl
  | cons p ps ih =>
    obtain ⟨m, hrun⟩ := run_deleteMatching_eq hs p
    obtain ⟨n', hrest⟩ := ih (s := { s with store := { s.store with
      entries := s.store.entries.withoutMatching [p] s.store.now } }) hs (n + m)
    refine ⟨n', ?_⟩
    unfold Stage.run at hrun hrest ⊢
    have hstep := run_bind_ok (f := fun m => (pure (n + m) : ExceptT StoreFault Talk Nat)) hrun
    rw [List.foldlM_cons, run_bind_ok hstep, hrest]
    -- the stage after the first pattern reads the clock the same
    exact congrArg (fun m => (Except.ok n', { s with store := { s.store with entries := m } }))
      (withoutMatching_cons s.store.entries p ps s.store.now)

/-- Deleting the keys of the patterns from a store that serves drops exactly the entries of the
live keys that match one of them. -/
theorem run_deletePatterns_eq {s : Stage} (hs : s.store.Serves) (patterns : List String) :
    ∃ n, Stage.run (deletePatterns patterns).run s =
      (.ok n, { s with store := { s.store with
        entries := s.store.entries.withoutMatching patterns s.store.now } }) :=
  run_deletePatterns_from hs patterns 0

/-! ## Writing through the cache -/

section WriteThrough

variable {α : Type} {patterns : List String} {write : Query α} {s s₁ : Stage}

theorem run_writeThrough_error {e : QueryFault} (h : Stage.run write.run s = (.error e, s₁)) :
    Stage.run (writeThrough patterns write).run s = (.error e, s₁) := by
  unfold writeThrough Stage.run at *
  rw [run_bind_error h]

theorem run_writeThrough_ok {v : α} (h : Stage.run write.run s = (.ok v, s₁)) :
    Stage.run (writeThrough patterns write).run s =
      (.ok v, (Stage.run (deletePatterns patterns).run s₁).2) := by
  unfold writeThrough Stage.run at *
  rw [run_bind_ok h, run_bind_ok (run_lift _ _)]
  rfl

theorem requests_writeThrough_error {e : QueryFault}
    (h : Stage.run write.run s = (.error e, s₁)) :
    Talk.requests Stage.answer (writeThrough patterns write).run s =
      Talk.requests Stage.answer write.run s := by
  unfold writeThrough
  exact requests_bind_error h

theorem requests_writeThrough_ok {v : α} (h : Stage.run write.run s = (.ok v, s₁)) :
    Talk.requests Stage.answer (writeThrough patterns write).run s =
      Talk.requests Stage.answer write.run s ++
        Talk.requests Stage.answer (deletePatterns patterns).run s₁ := by
  unfold writeThrough
  rw [requests_bind_ok h, requests_bind_ok (run_lift _ _), requests_lift]
  exact congrArg _ (List.append_nil _)

end WriteThrough

/-- A write through the cache runs the write once and returns its outcome, whatever the store
does: its requests are the write's, followed by requests that send nothing to the pool.  A failed
write is all that happens.  After a successful one the keys of the patterns are deleted from where
the write left the stage; on a store that serves, exactly the entries of the live keys matching a
pattern go, and every other entry and the rest of the stage stay as they were. -/
theorem run_writeThrough_eq {α : Type} (patterns : List String) (write : Query α) (s : Stage) :
    let direct := Stage.run write.run s
    let bound := Stage.run (writeThrough patterns write).run s
    bound.1 = direct.1 ∧
    (∃ rest, Talk.requests Stage.answer (writeThrough patterns write).run s =
        Talk.requests Stage.answer write.run s ++ rest ∧
      (∀ r ∈ rest, r.poolText? = none) ∧ (∀ e, direct.1 = .error e → rest = [])) ∧
    (∀ e, direct.1 = .error e → bound = direct) ∧
    (∀ v, direct.1 = .ok v → bound.2 = (Stage.run (deletePatterns patterns).run direct.2).2) ∧
    (∀ v, direct.1 = .ok v → direct.2.store.Serves →
      bound.2 = { direct.2 with store := { direct.2.store with
        entries := direct.2.store.entries.withoutMatching patterns direct.2.store.now } } ∧
      (∀ p ∈ patterns, bound.2.store.entries.scan p direct.2.store.now = []) ∧
      ∀ k, bound.2.store.entries.entries.lookup k =
        if patterns.any (fun p => (direct.2.store.entries.scan p direct.2.store.now).contains k)
        then none
        else direct.2.store.entries.entries.lookup k) := by
  intro direct bound
  rcases hrun : Stage.run write.run s with ⟨e | v, s₁⟩
  · -- the write failed: nothing follows it
    have hdirect : direct = (.error e, s₁) := hrun
    rw [show bound = (.error e, s₁) from run_writeThrough_error hrun, hdirect]
    refine ⟨rfl, ⟨[], (requests_writeThrough_error hrun).trans (List.append_nil _).symm,
      fun _ h => absurd h List.not_mem_nil, fun _ _ => rfl⟩, fun _ _ => rfl,
      fun _ h => by simp at h, fun _ h => by simp at h⟩
  · -- the write succeeded: the deletions follow, on the stage it left
    have hdirect : direct = (.ok v, s₁) := hrun
    rw [show bound = _ from run_writeThrough_ok hrun, hdirect]
    have hpool := (Front.sat_deletePatterns (P := fun r => r.poolText? = none) (fun _ h => h)
      patterns).requests Stage.answer s₁
    refine ⟨rfl, ⟨_, requests_writeThrough_ok hrun, hpool, fun _ h => by simp at h⟩,
      fun _ h => by simp at h, fun _ _ => rfl, fun _ _ hs => ?_⟩
    obtain ⟨n, hdel⟩ := run_deletePatterns_eq (s := s₁) hs patterns
    rw [hdel]
    exact ⟨rfl, fun p hp => scan_withoutMatching hp _ _, fun k => lookup_withoutMatching _ _ _ k⟩

/-- A write that succeeds on a store holding a key of its pattern and one of another: the
matching entry goes and the other stays. -/
theorem run_writeThrough_eq_of_two_keys :
    let s : Stage :=
      { store := { entries := (({} : ExpiringMap).set "shop:a" "1" none 1).set "shop:b" "2" none 1 } }
    let write : Query WriteResult := Query.execute "DELETE FROM a" []
    let direct := Stage.run write.run s
    let bound := Stage.run (writeThrough ["shop:a"] write).run s
    direct.1 = .ok ⟨1⟩ ∧ direct.2.store.Serves ∧
      (bound.2 = { direct.2 with store := { direct.2.store with
        entries := direct.2.store.entries.withoutMatching ["shop:a"] direct.2.store.now } } ∧
      (∀ p ∈ ["shop:a"], bound.2.store.entries.scan p direct.2.store.now = []) ∧
      ∀ k, bound.2.store.entries.entries.lookup k =
        if ["shop:a"].any (fun p => (direct.2.store.entries.scan p direct.2.store.now).contains k)
        then none
        else direct.2.store.entries.entries.lookup k) := by
  intro s write direct bound
  have hok : direct.1 = .ok ⟨1⟩ := rfl
  have hserves : direct.2.store.Serves := by decide
  exact ⟨hok, hserves, (run_writeThrough_eq ["shop:a"] write s).2.2.2.2 _ hok hserves⟩

/-! ## Reading through the cache -/

/-- What a read through the cache does on a miss from `s`, with `asked` the requests it makes
from there: the fetch runs once and its outcome is the read's; a value it gives is stored under
`key` as `value v` with the lifetime, if the store takes it, and a failure is stored nowhere. -/
def Fills {α : Type} (fetch : Query α) (key : String) (value : α → String)
    (life : Option Nat) (s : Stage) (outcome : Except QueryFault α × Stage)
    (asked : List Request) : Prop :=
  outcome.1 = (Stage.run fetch.run s).1 ∧
  (∀ e, (Stage.run fetch.run s).1 = .error e →
    outcome.2 = (Stage.run fetch.run s).2 ∧ asked = Talk.requests Stage.answer fetch.run s) ∧
  ∀ v, (Stage.run fetch.run s).1 = .ok v →
    outcome.2 = (Stage.answer (.storeSet key (value v) life) (Stage.run fetch.run s).2).2 ∧
    asked = Talk.requests Stage.answer fetch.run s ++ [.storeSet key (value v) life]

/-- The conversation of a miss: the fetch, then the store of its value under the key. -/
def fill {α : Type} (fetch : Query α) (key : String) (value : α → String) (life : Option Nat) :
    Query α :=
  fetch >>= fun v => Query.ask (.storeSet key (value v) life) >>= fun _ => pure v

section ReadThrough

variable {α : Type} (b : Binding) (key : CacheKey) (override : Option Int)
  (payload : Payload α) (fetch : Query α) {s : Stage}

/-- A failed look-up: the read is the fetch alone. -/
theorem readThrough_of_get_error {f : StoreFault} (h : s.store.get key.render = .error f) :
    Stage.run (b.readThrough key override payload fetch).run s = Stage.run fetch.run s ∧
    Talk.requests Stage.answer (b.readThrough key override payload fetch).run s =
      .storeGet key.render :: Talk.requests Stage.answer fetch.run s := by
  have hask : Talk.run Stage.answer (Query.ask (.storeGet key.render)).run s =
      (.ok (.error f), s) := by
    rw [run_ask]
    simp [Stage.answer, h]
  unfold Binding.readThrough Stage.run
  rw [run_bind_ok hask, requests_bind_ok hask, requests_ask]
  exact ⟨rfl, rfl⟩

/-- The conversation of a miss does what `Fills` says. -/
theorem fills_run (K : String) (value : α → String) (life : Option Nat) (s : Stage) :
    Fills fetch K value life s (Stage.run (fill fetch K value life).run s)
      (Talk.requests Stage.answer (fill fetch K value life).run s) := by
  unfold Fills fill
  rcases hf : Stage.run fetch.run s with ⟨e | v, s₁⟩
  · -- a failed fetch ends the read
    unfold Stage.run at hf ⊢
    rw [run_bind_error hf, requests_bind_error hf]
    exact ⟨rfl, fun _ _ => ⟨rfl, rfl⟩, fun _ h => by simp at h⟩
  · unfold Stage.run at hf ⊢
    rw [run_bind_ok hf, requests_bind_ok hf, run_bind_ok (run_ask _ _),
      requests_bind_ok (run_ask _ _), requests_ask]
    refine ⟨rfl, fun _ h => by simp at h, fun _ h => ?_⟩
    simp only [Except.ok.injEq] at h
    subst h
    exact ⟨rfl, rfl⟩

/-- A miss: the read goes on as the fetch and the store of its value. -/
theorem readThrough_of_miss {st : WatchedStore} (h : s.store.get key.render = .ok (none, st)) :
    Stage.run (b.readThrough key override payload fetch).run s =
      Stage.run (fill fetch key.render (fun v => Json.compact (payload.encode v))
        (b.lifetimes.effective key.category override)).run { s with store := st } ∧
    Talk.requests Stage.answer (b.readThrough key override payload fetch).run s =
      .storeGet key.render :: Talk.requests Stage.answer
        (fill fetch key.render (fun v => Json.compact (payload.encode v))
          (b.lifetimes.effective key.category override)).run { s with store := st } := by
  have hask : Talk.run Stage.answer (Query.ask (.storeGet key.render)).run s =
      (.ok (.ok none), { s with store := st }) := by
    rw [run_ask]
    simp [Stage.answer, h]
  unfold Binding.readThrough Stage.run
  rw [run_bind_ok hask, requests_bind_ok hask, requests_ask]
  exact ⟨rfl, rfl⟩

/-- A hit that decodes: the read returns the value and asks nothing more. -/
theorem readThrough_of_hit {text : String} {st : WatchedStore} {v : α}
    (h : s.store.get key.render = .ok (some text, st)) (hdec : payload.decode text = .ok v) :
    Stage.run (b.readThrough key override payload fetch).run s = (.ok v, { s with store := st }) ∧
    Talk.requests Stage.answer (b.readThrough key override payload fetch).run s =
      [.storeGet key.render] := by
  have hask : Talk.run Stage.answer (Query.ask (.storeGet key.render)).run s =
      (.ok (.ok (some text)), { s with store := st }) := by
    rw [run_ask]
    simp [Stage.answer, h]
  unfold Binding.readThrough Stage.run
  rw [run_bind_ok hask, requests_bind_ok hask, requests_ask]
  simp only [hdec]
  exact ⟨rfl, rfl⟩

/-- An undecodable payload under strict decoding: the read fails with the decoding error and
asks nothing more. -/
theorem readThrough_of_strict {text : String} {st : WatchedStore} {e : Json.Fault}
    (h : s.store.get key.render = .ok (some text, st)) (hdec : payload.decode text = .error e)
    (hstrict : b.strictDecode = true) :
    Stage.run (b.readThrough key override payload fetch).run s =
      (.error (.cache (.serialization e.text)), { s with store := st }) ∧
    Talk.requests Stage.answer (b.readThrough key override payload fetch).run s =
      [.storeGet key.render] := by
  have hask : Talk.run Stage.answer (Query.ask (.storeGet key.render)).run s =
      (.ok (.ok (some text)), { s with store := st }) := by
    rw [run_ask]
    simp [Stage.answer, h]
  unfold Binding.readThrough Stage.run
  rw [run_bind_ok hask, requests_bind_ok hask, requests_ask]
  simp only [hdec, hstrict, if_true]
  exact ⟨rfl, rfl⟩

/-- An undecodable payload otherwise: the read deletes the key and goes on as on a miss. -/
theorem readThrough_of_lenient {text : String} {st : WatchedStore} {e : Json.Fault}
    (h : s.store.get key.render = .ok (some text, st)) (hdec : payload.decode text = .error e)
    (hlenient : b.strictDecode = false) :
    Stage.run (b.readThrough key override payload fetch).run s =
      Stage.run (fill fetch key.render (fun v => Json.compact (payload.encode v))
        (b.lifetimes.effective key.category override)).run
        (Stage.answer (.storeDelete key.render) { s with store := st }).2 ∧
    Talk.requests Stage.answer (b.readThrough key override payload fetch).run s =
      .storeGet key.render :: .storeDelete key.render :: Talk.requests Stage.answer
        (fill fetch key.render (fun v => Json.compact (payload.encode v))
          (b.lifetimes.effective key.category override)).run
        (Stage.answer (.storeDelete key.render) { s with store := st }).2 := by
  have hask : Talk.run Stage.answer (Query.ask (.storeGet key.render)).run s =
      (.ok (.ok (some text)), { s with store := st }) := by
    rw [run_ask]
    simp [Stage.answer, h]
  unfold Binding.readThrough Stage.run
  rw [run_bind_ok hask, requests_bind_ok hask, requests_ask]
  simp only [hdec, hlenient, Bool.false_eq_true, if_false]
  exact ⟨rfl, rfl⟩

end ReadThrough

/-- A read through the cache follows its protocol on every path.  When the look-up fails, the
read is the fetch alone.  On a miss the fetch runs once, and a value it gives is stored under the
key, as compact JSON, with the key's lifetime.  A payload that decodes is returned, with the
store left as it was and nothing else asked.  A payload that does not decode fails the read
under strict decoding, again with the store left as it was; otherwise the key is deleted and the
read goes on as on a miss. -/
theorem run_readThrough_eq {α : Type} (b : Binding) (key : CacheKey) (override : Option Int)
    (payload : Payload α) (fetch : Query α) (s : Stage) :
    let K := key.render
    let value := fun v => Json.compact (payload.encode v)
    let life := b.lifetimes.effective key.category override
    let read := b.readThrough key override payload fetch
    (∀ f, s.store.get K = .error f →
      Stage.run read.run s = Stage.run fetch.run s ∧
      Talk.requests Stage.answer read.run s = .storeGet K :: Talk.requests Stage.answer fetch.run s) ∧
    (∀ st, s.store.get K = .ok (none, st) → ∃ asked,
      Talk.requests Stage.answer read.run s = .storeGet K :: asked ∧
      Fills fetch K value life { s with store := st } (Stage.run read.run s) asked) ∧
    (∀ text st v, s.store.get K = .ok (some text, st) → payload.decode text = .ok v →
      Stage.run read.run s = (.ok v, s) ∧ Talk.requests Stage.answer read.run s = [.storeGet K]) ∧
    (∀ text st e, s.store.get K = .ok (some text, st) → payload.decode text = .error e →
      b.strictDecode = true →
      Stage.run read.run s = (.error (.cache (.serialization e.text)), s) ∧
      Talk.requests Stage.answer read.run s = [.storeGet K]) ∧
    (∀ text st e, s.store.get K = .ok (some text, st) → payload.decode text = .error e →
      b.strictDecode = false → ∃ asked,
      Talk.requests Stage.answer read.run s = .storeGet K :: .storeDelete K :: asked ∧
      Fills fetch K value life (Stage.answer (.storeDelete K) { s with store := st }).2
        (Stage.run read.run s) asked) := by
  intro K value life read
  refine ⟨fun f h => readThrough_of_get_error b key override payload fetch h,
    fun st h => ?_, fun text st v h hdec => ?_, fun text st e h hdec hstrict => ?_,
    fun text st e h hdec hlenient => ?_⟩
  · obtain ⟨hrun, hreq⟩ := readThrough_of_miss b key override payload fetch h
    exact ⟨_, hreq, hrun ▸ fills_run fetch _ _ _ _⟩
  · -- the look-up found a live value, so it dropped nothing
    have hst := get_of_found h
    subst hst
    exact readThrough_of_hit b key override payload fetch h hdec
  · have hst := get_of_found h
    subst hst
    exact readThrough_of_strict b key override payload fetch h hdec hstrict
  · obtain ⟨hrun, hreq⟩ := readThrough_of_lenient b key override payload fetch h hdec hlenient
    exact ⟨_, hreq, hrun ▸ fills_run fetch _ _ _ _⟩

/-- A read of the table names whose payload is in the store: the value is returned, the stage
is left as it was, and only the look-up is asked. -/
theorem run_readThrough_eq_of_hit :
    let b : Binding := { space := ⟨"sql", "shop"⟩ }
    let key := b.space.key .schema "table_names"
    let payload : Payload Unit := ⟨fun _ => .null, fun _ => .ok ()⟩
    let s : Stage := { store := { entries := ({} : ExpiringMap).set key.render "null" none 1 } }
    (∃ st, s.store.get key.render = .ok (some "null", st)) ∧ payload.decode "null" = .ok () ∧
      Stage.run (b.readThrough key none payload (pure ())).run s = (.ok (), s) ∧
      Talk.requests Stage.answer (b.readThrough key none payload (pure ())).run s =
        [.storeGet key.render] := by
  intro b key payload s
  obtain ⟨st, hget⟩ : ∃ st, s.store.get key.render = .ok (some "null", st) := ⟨_, rfl⟩
  have hdec : payload.decode "null" = .ok () := rfl
  exact ⟨⟨st, hget⟩, hdec,
    (run_readThrough_eq b key none payload (pure ()) s).2.2.1 "null" st () hget hdec⟩

end Binding

end QueryShield
