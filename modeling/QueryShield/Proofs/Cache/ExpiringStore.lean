import Mathlib
import QueryShield.Cache.ExpiringMap

/-!
# The expiring map as a store over time

`ExpiringMap` keeps its entries in a list sorted by key and lets expired entries linger until a
look-up of their key meets them.  This module follows the map through any history of calls made
at explicit instants (`ExpiringMap.replay`) and says what every answer is in terms of the
history alone.

The entry a key holds after a history is the one its latest store gave it, provided no call
since took it away (`lookup_replay`): a later store of the key replaces it, a delete of the key
removes it, a pattern delete removes it when it is live and matches, and a look-up of the key
drops it once its deadline has passed.  The first three are the expiring map a store promises
(`Latest`); the last is the map's own bookkeeping (`Held`).  When every call of the history was
made no later than the current instant, a look-up cannot have dropped an entry that is live now,
so the live entries are exactly those of the promised map (`held_iff_latest_of_live`), and every
look-up, scan, key listing, lifetime query and pattern delete answers as the promised map says
(`replay_answers`).

A delete is the exception: it reports whether the map still holds an entry for the key, live
or not.  An entry whose deadline has passed is reported as there until a look-up of its key has
dropped it (`delete_reports_expired_entry`).

The proofs rest on the invariant the map carries, that its keys are sorted, which makes the
first entry of a key its only one (`nodup_keys`).
-/

namespace QueryShield

namespace Entry

/-- An entry live at an instant was live at every earlier one. -/
theorem isLive_of_le {e : Entry} {t t' : Nat} (h : t ≤ t') (hl : e.isLive t' = true) :
    e.isLive t = true := by
  unfold isLive at *
  cases hd : e.deadline with
  | none => rfl
  | some d =>
    rw [hd] at hl
    simp only [decide_eq_true_eq] at hl ⊢
    omega

end Entry

namespace ExpiringMap

/-! ## One entry per key -/

/-- The keys are sorted, so each key has at most one entry. -/
theorem nodup_keys (m : ExpiringMap) : (m.entries.map Prod.fst).Nodup :=
  m.sorted.imp String.ne_of_lt

section Entries

variable {l : List (String × Entry)} {k k' : String} {e : Entry}

theorem lookup_cons_eq_ite (k₀ : String) (e₀ : Entry) (l : List (String × Entry)) :
    ((k₀, e₀) :: l).lookup k = if k = k₀ then some e₀ else l.lookup k := by
  by_cases h : k = k₀
  · subst h
    simp
  · simp [List.lookup_cons, beq_eq_false_iff_ne.2 h, h]

theorem lookup_eq_some_of_mem (hnd : (l.map Prod.fst).Nodup) (h : (k, e) ∈ l) :
    l.lookup k = some e := by
  induction l with
  | nil => simp at h
  | cons x l ih =>
    obtain ⟨k₀, e₀⟩ := x
    simp only [List.map_cons, List.nodup_cons, List.mem_map] at hnd
    rcases List.mem_cons.1 h with h | h
    · cases h
      simp
    · have hk : (k == k₀) = false := beq_eq_false_iff_ne.2 fun hk => hnd.1 ⟨(k, e), h, hk⟩
      simp only [List.lookup_cons, hk]
      exact ih hnd.2 h

theorem mem_of_lookup_eq_some (h : l.lookup k = some e) : (k, e) ∈ l := by
  induction l with
  | nil => simp at h
  | cons x l ih =>
    obtain ⟨k₀, e₀⟩ := x
    by_cases hk : k = k₀
    · subst hk
      simp only [List.lookup_cons, beq_self_eq_true, Option.some.injEq] at h
      simp [h]
    · simp only [List.lookup_cons, beq_eq_false_iff_ne.2 hk] at h
      exact List.mem_cons_of_mem _ (ih h)

/-- Storing under `k` gives `k` the new entry and leaves every other key's. -/
theorem lookup_insertEntry (l : List (String × Entry)) :
    (insertEntry k e l).lookup k' = if k' = k then some e else l.lookup k' := by
  induction l with
  | nil => by_cases h : k' = k <;> simp [insertEntry, h]
  | cons x l ih =>
    obtain ⟨k₀, e₀⟩ := x
    rw [insertEntry_cons]
    by_cases h₀ : k = k₀
    · subst h₀
      by_cases h : k' = k <;> simp [lookup_cons_eq_ite, h]
    · by_cases hlt : k < k₀
      · by_cases h : k' = k <;> simp [lookup_cons_eq_ite, h, h₀, hlt]
      · simp only [beq_iff_eq, h₀, if_false, hlt, lookup_cons_eq_ite, ih]
        by_cases h : k' = k
        · subst h
          simp [h₀]
        · simp [h]

/-- Keeping the entries whose key passes a test keeps the look-ups of those keys. -/
theorem lookup_filter_key (p : String → Bool) (l : List (String × Entry)) :
    (l.filter fun x => p x.1).lookup k = if p k then l.lookup k else none := by
  induction l with
  | nil => simp
  | cons y l ih =>
    obtain ⟨k₀, e₀⟩ := y
    rw [List.filter_cons]
    by_cases hk : k = k₀
    · subst hk
      by_cases hp : p k <;> simp [hp, ih]
    · by_cases hp : p k₀ <;> simp [hp, hk, lookup_cons_eq_ite, ih]

theorem lookup_eq_none_of_not_mem (h : k ∉ l.map Prod.fst) : l.lookup k = none := by
  cases hl : l.lookup k with
  | none => rfl
  | some e => exact absurd (List.mem_map_of_mem (mem_of_lookup_eq_some hl)) h

/-- With one entry per key, filtering the entries filters the look-ups. -/
theorem lookup_filter (q : String × Entry → Bool) (hnd : (l.map Prod.fst).Nodup) :
    (l.filter q).lookup k = (l.lookup k).filter fun e => q (k, e) := by
  induction l with
  | nil => simp
  | cons y l ih =>
    obtain ⟨k₀, e₀⟩ := y
    simp only [List.map_cons, List.nodup_cons] at hnd
    rw [List.filter_cons]
    by_cases hk : k = k₀
    · -- the entry of `k` is the first one, and the rest holds no other
      subst hk
      have hrest : (l.filter q).lookup k = none := by
        rw [ih hnd.2, lookup_eq_none_of_not_mem hnd.1, Option.filter_none]
      by_cases hq : q (k, e₀) <;> simp [hq, hrest, Option.filter_some]
    · by_cases hq : q (k₀, e₀) <;> simp [hq, hk, lookup_cons_eq_ite, ih hnd.2]

/-- The keys of a list hold an entry exactly when looking them up finds one. -/
theorem any_key_eq (l : List (String × Entry)) :
    (l.any fun x => x.1 == k) = (l.lookup k).isSome := by
  induction l with
  | nil => rfl
  | cons y l ih =>
    obtain ⟨k₀, e₀⟩ := y
    by_cases hk : k = k₀
    · subst hk
      simp
    · simp [lookup_cons_eq_ite, hk, Ne.symm hk, ih]

end Entries

/-! ## What each call does to the entries -/

section Calls

variable {m : ExpiringMap} {k k' : String} {now : Nat}

theorem lookup_set (v : String) (life : Option Nat) :
    (m.set k v life now).entries.lookup k' =
      if k' = k then some ⟨v, life.map (now + ·)⟩ else m.entries.lookup k' :=
  lookup_insertEntry _

theorem lookup_delete :
    (m.delete k).1.entries.lookup k' = if k' = k then none else m.entries.lookup k' := by
  rw [delete, entries_filter, lookup_filter _ m.nodup_keys]
  by_cases h : k' = k
  · simp [h]
  · cases m.entries.lookup k' <;> simp [h, Option.filter_some]

/-- A delete reports whether the map held an entry for the key, live or not. -/
theorem delete_snd : (m.delete k).2 = (m.entries.lookup k).isSome :=
  any_key_eq m.entries

theorem lookup_dropExpired :
    (m.dropExpired k now).entries.lookup k' =
      if k' = k then (m.entries.lookup k).filter (·.isLive now) else m.entries.lookup k' := by
  rw [dropExpired, entries_filter, lookup_filter _ m.nodup_keys]
  by_cases h : k' = k
  · subst h
    simp
  · cases m.entries.lookup k' <;> simp [h, Option.filter_some]

/-- Deleting distinct keys one after the other drops their entries and counts the keys that had
one. -/
theorem foldl_delete (ks : List String) (hks : ks.Nodup) (m : ExpiringMap) (n : Nat) :
    ks.foldl (fun acc k =>
        ((acc.1.delete k).1, if (acc.1.delete k).2 then acc.2 + 1 else acc.2)) (m, n) =
      (m.filter fun x => !ks.contains x.1,
        n + (ks.filter fun k => (m.entries.lookup k).isSome).length) := by
  induction ks generalizing m n with
  | nil => simp [ExpiringMap.ext_iff]
  | cons k ks ih =>
    simp only [List.nodup_cons] at hks
    rw [List.foldl_cons]
    refine (ih hks.2 (m.delete k).1 (if (m.delete k).2 then n + 1 else n)).trans ?_
    rw [delete_snd]
    -- the later keys are not `k`, so deleting `k` first leaves their look-ups alone
    have hrest : (ks.filter fun k' => ((m.delete k).1.entries.lookup k').isSome) =
        ks.filter fun k' => (m.entries.lookup k').isSome := by
      refine List.filter_congr fun k' hk' => ?_
      have hne : k' ≠ k := fun h => hks.1 (h ▸ hk')
      rw [lookup_delete, if_neg hne]
    rw [hrest, Prod.mk.injEq]
    constructor
    · ext1
      simp only [delete, entries_filter, List.filter_filter, List.contains_cons]
      refine List.filter_congr fun x _ => ?_
      simp [bne, Bool.and_comm]
    · simp only [List.filter_cons]
      split
      · rw [List.length_cons]
        omega
      · rfl

theorem get_fst_eq_some_iff {v : String} :
    (m.get k now).1 = some v ↔
      ∃ e, m.entries.lookup k = some e ∧ e.isLive now = true ∧ e.value = v := by
  show m.get? k now = some v ↔ _
  unfold get?
  cases m.entries.lookup k with
  | none => simp
  | some e => by_cases hl : e.isLive now <;> simp [hl]

/-- A look-up that finds a live value drops nothing: the key's only entry is live. -/
theorem dropExpired_of_get {v : String} (h : (m.get k now).1 = some v) :
    m.dropExpired k now = m := by
  obtain ⟨e, he, hlive, -⟩ := get_fst_eq_some_iff.1 h
  ext1
  rw [dropExpired, entries_filter, List.filter_eq_self.2]
  rintro ⟨k', e'⟩ hmem
  by_cases hk : k' = k
  · subst hk
    have : e' = e := Option.some.inj ((lookup_eq_some_of_mem m.nodup_keys hmem).symm.trans he)
    simp [this, hlive]
  · simp [hk]

theorem remaining?_eq_some_iff {r : Option Nat} :
    m.remaining? k now = some r ↔
      ∃ e, m.entries.lookup k = some e ∧ e.isLive now = true ∧ r = e.deadline.map (· - now) := by
  unfold remaining?
  cases m.entries.lookup k with
  | none => simp
  | some e =>
    by_cases hl : e.isLive now
    · simp only [hl, if_true, Option.some.injEq, true_and, exists_eq_left']
      exact eq_comm
    · simp [hl]

/-- The live keys come out sorted, so each once. -/
theorem keys_sorted : (m.keys now).Pairwise (· < ·) :=
  m.sorted.sublist ((List.filter_sublist).map Prod.fst)

theorem mem_keys :
    k ∈ m.keys now ↔ ∃ e, m.entries.lookup k = some e ∧ e.isLive now = true := by
  unfold keys
  simp only [List.mem_map, List.mem_filter]
  constructor
  · rintro ⟨⟨k', e⟩, ⟨hmem, hlive⟩, rfl⟩
    exact ⟨e, lookup_eq_some_of_mem m.nodup_keys hmem, hlive⟩
  · rintro ⟨e, he, hlive⟩
    exact ⟨(k, e), ⟨mem_of_lookup_eq_some he, hlive⟩, rfl⟩

theorem mem_scan (p : String) :
    k ∈ m.scan p now ↔
      (∃ e, m.entries.lookup k = some e ∧ e.isLive now = true) ∧ Glob.accepts p k = true := by
  rw [scan, List.mem_filter, mem_keys]

theorem scan_nodup (p : String) : (m.scan p now).Nodup :=
  (keys_sorted.imp ne_of_lt).filter _

/-- A pattern delete drops the entries of the live keys that match and counts them. -/
theorem deleteMatching_eq (p : String) :
    m.deleteMatching p now =
      (m.filter fun x => !(m.scan p now).contains x.1, (m.scan p now).length) := by
  unfold deleteMatching
  dsimp only
  rw [foldl_delete _ (scan_nodup p) m, Nat.zero_add]
  -- every scanned key is live, so it has an entry
  have hall : (m.scan p now).filter (fun k => (m.entries.lookup k).isSome) = m.scan p now := by
    refine List.filter_eq_self.2 fun k hk => ?_
    obtain ⟨⟨e, he, -⟩, -⟩ := (mem_scan p).1 hk
    simp [he]
  rw [hall]

theorem lookup_deleteMatching (p : String) :
    (m.deleteMatching p now).1.entries.lookup k =
      if k ∈ m.scan p now then none else m.entries.lookup k := by
  rw [deleteMatching_eq, entries_filter, lookup_filter _ m.nodup_keys]
  by_cases h : k ∈ m.scan p now
  · simp [h]
  · cases m.entries.lookup k <;> simp [h, Option.filter_some]

end Calls

end ExpiringMap

/-! ## Histories of calls -/

/-- A call on a store of expiring entries. -/
inductive StoreCall where
  | set (key value : String) (lifetime : Option Nat)
  | get (key : String)
  | scan (pattern : String)
  | delete (key : String)
  | deleteMatching (pattern : String)
deriving DecidableEq, Repr

namespace StoreCall

/-- Whether a call, made while `k` holds `e`, takes `e` away as a store promises: a later store
of `k` replaces it, a delete of `k` removes it, and a pattern delete removes it when it is live
and the pattern matches `k`. -/
def Displaces (k : String) (e : Entry) : Nat × StoreCall → Prop
  | (_, .set k' _ _) => k' = k
  | (_, .delete k') => k' = k
  | (now, .deleteMatching p) => e.isLive now = true ∧ Glob.accepts p k = true
  | _ => False

/-- Whether a call drops `e` from `k` as expired: a look-up of `k` once `e`'s deadline has
passed. -/
def Purges (k : String) (e : Entry) : Nat × StoreCall → Prop
  | (now, .get k') => k' = k ∧ e.isLive now = false
  | _ => False

end StoreCall

namespace ExpiringMap

/-- The map after one call, made at the instant the call carries. -/
def after (m : ExpiringMap) : Nat × StoreCall → ExpiringMap
  | (now, .set k v life) => m.set k v life now
  | (now, .get k) => (m.get k now).2
  | (_, .scan _) => m
  | (_, .delete k) => (m.delete k).1
  | (now, .deleteMatching p) => (m.deleteMatching p now).1

/-- The map after a history of calls, from the empty map. -/
def replay (h : List (Nat × StoreCall)) : ExpiringMap := h.foldl after {}

theorem replay_append_singleton (h : List (Nat × StoreCall)) (x : Nat × StoreCall) :
    replay (h ++ [x]) = (replay h).after x := by
  simp [replay, List.foldl_append]

/-- `k` holds `e` after the calls `h` by the rule `stays`: some call of `h` stored `e` under `k`,
and every call after it satisfies `stays`. -/
def StoredSince (stays : Nat × StoreCall → Prop) (h : List (Nat × StoreCall)) (k : String)
    (e : Entry) : Prop :=
  ∃ pre t v life post, h = pre ++ (t, .set k v life) :: post ∧ e = ⟨v, life.map (t + ·)⟩ ∧
    ∀ x ∈ post, stays x

/-- The entry of `k` on the expiring map a store promises: the latest store of `k` gave it, and
no delete or pattern delete has removed it since. -/
def Latest (h : List (Nat × StoreCall)) (k : String) (e : Entry) : Prop :=
  StoredSince (fun x => ¬ StoreCall.Displaces k e x) h k e

/-- The entry of `k` the map still holds: as for `Latest`, and no look-up of `k` has dropped it
as expired. -/
def Held (h : List (Nat × StoreCall)) (k : String) (e : Entry) : Prop :=
  StoredSince (fun x => ¬ StoreCall.Displaces k e x ∧ ¬ StoreCall.Purges k e x) h k e

section History

variable {stays : Nat × StoreCall → Prop} {h : List (Nat × StoreCall)} {t : Nat} {c : StoreCall}
  {k : String} {e : Entry}

/-- One more call: either it is the store that gave `e`, or `e` was given before and the call
lets it stay. -/
theorem storedSince_append_singleton :
    StoredSince stays (h ++ [(t, c)]) k e ↔
      (∃ v life, c = .set k v life ∧ e = ⟨v, life.map (t + ·)⟩) ∨
        (StoredSince stays h k e ∧ stays (t, c)) := by
  constructor
  · rintro ⟨pre, t', v, life, post, heq, he, hpost⟩
    rcases List.eq_nil_or_concat' post with rfl | ⟨post', x, rfl⟩
    · -- the store is the last call
      obtain ⟨-, hx⟩ := List.append_inj' heq rfl
      simp only [List.cons.injEq, Prod.mk.injEq] at hx
      obtain ⟨⟨rfl, rfl⟩, -⟩ := hx
      exact .inl ⟨v, life, rfl, he⟩
    · rw [← List.cons_append, ← List.append_assoc] at heq
      obtain ⟨rfl, hx⟩ := List.append_inj' heq rfl
      simp only [List.cons.injEq, and_true] at hx
      subst hx
      refine .inr ⟨⟨pre, t', v, life, post', rfl, he, fun y hy => hpost y (by simp [hy])⟩, ?_⟩
      exact hpost _ (by simp)
  · rintro (⟨v, life, rfl, rfl⟩ | ⟨⟨pre, t', v, life, post, rfl, he, hpost⟩, hx⟩)
    · exact ⟨h, t, v, life, [], rfl, rfl, by simp⟩
    · refine ⟨pre, t', v, life, post ++ [(t, c)], by simp, he, fun y hy => ?_⟩
      rcases List.mem_append.1 hy with hy | hy
      · exact hpost y hy
      · rw [List.mem_singleton.1 hy]
        exact hx

theorem not_storedSince_nil : ¬ StoredSince stays [] k e := by
  rintro ⟨pre, t, v, life, post, heq, -⟩
  simp at heq

theorem held_append_singleton :
    Held (h ++ [(t, c)]) k e ↔
      (∃ v life, c = .set k v life ∧ e = ⟨v, life.map (t + ·)⟩) ∨
        (Held h k e ∧ ¬ StoreCall.Displaces k e (t, c) ∧ ¬ StoreCall.Purges k e (t, c)) :=
  storedSince_append_singleton

/-- The entry a key holds after a history is the one its latest store gave it, as long as no
call since has displaced it or dropped it as expired. -/
theorem lookup_replay (h : List (Nat × StoreCall)) (k : String) (e : Entry) :
    (replay h).entries.lookup k = some e ↔ Held h k e := by
  -- induction on the history from its end: one step lemma per kind of call
  induction h using List.reverseRecOn with
  | nil => simp [replay, Held, not_storedSince_nil]
  | append_singleton h x ih =>
    obtain ⟨t, c⟩ := x
    rw [replay_append_singleton, held_append_singleton, ← ih]
    cases c with
    | set k' v life =>
      rw [after, lookup_set]
      by_cases hk : k = k'
      · subst hk
        simp [StoreCall.Displaces, eq_comm]
      · simp [hk, Ne.symm hk, StoreCall.Displaces, StoreCall.Purges]
    | get k' =>
      rw [after, ExpiringMap.get, lookup_dropExpired]
      by_cases hk : k = k'
      · subst hk
        simp [StoreCall.Displaces, StoreCall.Purges, Option.filter_eq_some_iff]
      · simp [hk, Ne.symm hk, StoreCall.Displaces, StoreCall.Purges]
    | scan p =>
      simp [after, StoreCall.Displaces, StoreCall.Purges]
    | delete k' =>
      rw [after, lookup_delete]
      by_cases hk : k = k'
      · subst hk
        simp [StoreCall.Displaces]
      · simp [hk, Ne.symm hk, StoreCall.Displaces, StoreCall.Purges]
    | deleteMatching p =>
      rw [after, lookup_deleteMatching]
      simp only [StoreCall.Displaces, StoreCall.Purges, not_false_eq_true, and_true,
        reduceCtorEq, false_and, exists_false, false_or]
      -- with `e` held, `k` is scanned exactly when `e` is live and matches
      by_cases hk : k ∈ (replay h).scan p t
      · obtain ⟨⟨e', he', hlive⟩, hacc⟩ := (mem_scan p).1 hk
        simp only [hk, if_true, reduceCtorEq, false_iff, not_and]
        intro he
        rw [he] at he'
        cases he'
        exact fun hkept => hkept hlive hacc
      · simp only [hk, if_false, iff_self_and]
        rintro he ⟨hlive, hacc⟩
        exact hk ((mem_scan p).2 ⟨⟨e, he, hlive⟩, hacc⟩)

/-- A look-up drops only entries that have expired, so when no call of the history came after
`now`, an entry live at `now` is held exactly when it is the latest. -/
theorem held_iff_latest_of_live {now : Nat} (hnow : ∀ x ∈ h, x.1 ≤ now)
    (hlive : e.isLive now = true) : Held h k e ↔ Latest h k e := by
  constructor
  · rintro ⟨pre, t, v, life, post, rfl, he, hpost⟩
    exact ⟨pre, t, v, life, post, rfl, he, fun x hx => (hpost x hx).1⟩
  · rintro ⟨pre, t, v, life, post, rfl, he, hpost⟩
    refine ⟨pre, t, v, life, post, rfl, he, fun x hx => ⟨hpost x hx, ?_⟩⟩
    -- the call came no later than `now`, so `e` was still live then
    obtain ⟨t', c⟩ := x
    have hle : t' ≤ now := hnow _ (List.mem_append_right _ (List.mem_cons_of_mem _ hx))
    cases c <;> simp [StoreCall.Purges, Entry.isLive_of_le hle hlive]

/-- The live entries of the map after a history are those of the expiring map a store
promises. -/
theorem lookup_replay_live {now : Nat} (hnow : ∀ x ∈ h, x.1 ≤ now) :
    (replay h).entries.lookup k = some e ∧ e.isLive now = true ↔
      Latest h k e ∧ e.isLive now = true := by
  rw [lookup_replay]
  constructor
  · rintro ⟨hheld, hlive⟩
    exact ⟨(held_iff_latest_of_live hnow hlive).1 hheld, hlive⟩
  · rintro ⟨hlatest, hlive⟩
    exact ⟨(held_iff_latest_of_live hnow hlive).2 hlatest, hlive⟩

end History

/-- Over any history in which no call came after `now`, the map answers as the expiring map a
store promises: a look-up finds the live value the latest store of the key gave, a scan lists
each live key that matches once and nothing else, a pattern delete drops exactly those keys and
counts them, and the key listing and the lifetime query report the live keys.  A delete reports
whether the map still holds an entry for the key, which may have expired. -/
theorem replay_answers (h : List (Nat × StoreCall)) (now : Nat) (hnow : ∀ x ∈ h, x.1 ≤ now) :
    (∀ k v, ((replay h).get k now).1 = some v ↔
      ∃ e, Latest h k e ∧ e.isLive now = true ∧ e.value = v) ∧
    (∀ p, ((replay h).scan p now).Nodup ∧ ∀ k, k ∈ (replay h).scan p now ↔
      (∃ e, Latest h k e ∧ e.isLive now = true) ∧ Glob.accepts p k = true) ∧
    (∀ p, ((replay h).deleteMatching p now).2 = ((replay h).scan p now).length ∧
      ∀ k, ((replay h).deleteMatching p now).1.entries.lookup k =
        if k ∈ (replay h).scan p now then none else (replay h).entries.lookup k) ∧
    (∀ k, k ∈ (replay h).keys now ↔ ∃ e, Latest h k e ∧ e.isLive now = true) ∧
    (∀ k r, (replay h).remaining? k now = some r ↔
      ∃ e, Latest h k e ∧ e.isLive now = true ∧ r = e.deadline.map (· - now)) ∧
    (∀ k, ((replay h).delete k).2 = true ↔ ∃ e, Held h k e) := by
  -- every answer about live entries goes through `lookup_replay_live`
  have live : ∀ k e, ((replay h).entries.lookup k = some e ∧ e.isLive now = true) ↔
      (Latest h k e ∧ e.isLive now = true) := fun _ _ => lookup_replay_live hnow
  refine ⟨fun k v => ?_, fun p => ⟨scan_nodup p, fun k => ?_⟩,
    fun p => ⟨by rw [deleteMatching_eq], fun k => lookup_deleteMatching p⟩,
    fun k => ?_, fun k r => ?_, fun k => ?_⟩
  · rw [get_fst_eq_some_iff]
    exact exists_congr fun e => by rw [← and_assoc, ← and_assoc, live]
  · rw [mem_scan]
    exact and_congr_left' (exists_congr fun e => live k e)
  · rw [mem_keys]
    exact exists_congr fun e => live k e
  · rw [remaining?_eq_some_iff]
    exact exists_congr fun e => by rw [← and_assoc, ← and_assoc, live]
  · rw [delete_snd, Option.isSome_iff_exists]
    exact exists_congr fun e => lookup_replay h k e

/-- A history whose calls all come before instant 3, so that `replay_answers` speaks of it
there: the key `a`, stored at 0 for ten seconds, is found with its value. -/
theorem replay_answers_at_three :
    let h : List (Nat × StoreCall) :=
      [(0, .set "a" "1" (some 10)), (1, .set "b" "2" none), (2, .delete "b")]
    (∀ x ∈ h, x.1 ≤ 3) ∧
      (((replay h).get "a" 3).1 = some "1" ↔
        ∃ e, Latest h "a" e ∧ e.isLive 3 = true ∧ e.value = "1") := by
  intro h
  exact ⟨by decide, (replay_answers h 3 (by decide)).1 "a" "1"⟩

/-- A delete reports an entry whose deadline has passed until a look-up of its key drops it:
stored at instant 0 for one second, at instant 5 the key is neither found nor listed, yet a
delete reports it; after a look-up at 5 it does not. -/
theorem delete_reports_expired_entry :
    ((replay [(0, .set "k" "v" (some 1))]).get "k" 5).1 = none ∧
    "k" ∉ (replay [(0, .set "k" "v" (some 1))]).keys 5 ∧
    ((replay [(0, .set "k" "v" (some 1))]).delete "k").2 = true ∧
    ((replay [(0, .set "k" "v" (some 1)), (5, .get "k")]).delete "k").2 = false := by
  decide

end ExpiringMap

end QueryShield
