import Mathlib
import QueryShield.Proofs.Cache.BindingProtocol

/-!
# Deadlines and the range of the clock

A read through the cache that misses stores the fetched value with the lifetime of its key: the
per-call override when there is one, otherwise the category's seconds, and no lifetime when that
is not positive (`Lifetimes.effective`).  The store dates the entry's deadline with the monotonic
clock, whose second count is a signed 64-bit number, and a deadline out of that range makes the
store panic.

The main result, `readThrough_panics_iff_out_of_range`, says exactly when a read panics.  The
lifetime it hands the store is never larger than the largest signed 64-bit number, when the
override and the category's seconds are signed 64-bit numbers (`effective_le_maxSecs`), so the
addition of the lifetime alone is always in range.  After a miss and a fetch that succeeds, on a
store that takes the write, the read panics exactly when the clock's second count and the
lifetime together pass that number (`readThrough_panics_iff`).  A read therefore never panics
while the clock reads less than a second; but the clock counts from boot, and once it has passed
its first second the largest override makes a read panic
(`tableNames_panics_at_largest_override`).
-/

namespace QueryShield

namespace Instant

theorem maxSecs_eq : maxSecs = 9223372036854775807 := rfl

/-- Adding whole seconds to an instant succeeds exactly when the second count stays in range:
the seconds alone are then in range too. -/
theorem addSeconds?_isSome_iff (t : Instant) (s : Nat) :
    (t.addSeconds? s).isSome = true ↔ t.secs + s ≤ maxSecs := by
  unfold addSeconds?
  split_ifs with hs hsum
  · simpa using hsum
  · simpa using hsum
  · simp only [Option.isSome_none, Bool.false_eq_true, false_iff]
    omega

/-- A deadline fits the clock exactly when the clock's second count and the lifetime, if there
is one, stay in range. -/
theorem fits_iff (t : Instant) (lifetime : Option Nat) :
    t.fits lifetime = true ↔ ∀ s ∈ lifetime, t.secs + s ≤ maxSecs := by
  cases lifetime with
  | none => simp [fits]
  | some s => simp [fits, addSeconds?_isSome_iff]

end Instant

namespace Lifetimes

/-- A lifetime taken from signed 64-bit seconds is at most the largest of them. -/
theorem effective_le_maxSecs {l : Lifetimes} {c : Category} {o : Option Int}
    (hl : l.secondsFor c < (Nat.pow 2 63 : Nat)) (ho : ∀ x ∈ o, x < (Nat.pow 2 63 : Nat)) :
    ∀ s ∈ l.effective c o, s ≤ Instant.maxSecs := by
  have hlt : o.getD (l.secondsFor c) < (Nat.pow 2 63 : Nat) := by
    cases o with
    | none => exact hl
    | some x => exact ho x rfl
  have hpow : ((Nat.pow 2 63 : Nat) : Int) = 9223372036854775808 := rfl
  intro s hs
  dsimp only [effective] at hs
  split at hs
  · rw [Option.mem_def, Option.some.injEq] at hs
    rw [Instant.maxSecs_eq, ← hs]
    omega
  · cases hs

end Lifetimes

namespace WatchedStore

/-- A store that takes a write stores the value when its deadline is in the clock's range, and
otherwise panics, its entries unchanged. -/
theorem set_of_allow {s : WatchedStore} (h : s.allow .set = .ok ()) (key value : String)
    (life : Option Nat) :
    s.set key value life =
      .ok (if s.clock.fits life then { s with entries := s.entries.set key value life s.now }
        else { s with panicked := some Instant.overflowMessage }) := by
  by_cases hf : s.clock.fits life = true
  · simp [set, panicOf, h, hf, bind, Except.bind, pure, Except.pure]
  · simp [set, panicOf, h, hf, bind, Except.bind, pure, Except.pure]

end WatchedStore

namespace Stage

theorem answer_storeSet_panicked {s : Stage} (h : s.store.allow .set = .ok ()) (key value : String)
    (life : Option Nat) :
    (answer (.storeSet key value life) s).2.store.panicked =
      if s.store.clock.fits life then s.store.panicked else some Instant.overflowMessage := by
  simp only [answer, WatchedStore.set_of_allow h]
  split <;> rfl

end Stage

namespace Binding

section ReadThrough

variable {α : Type} (b : Binding) (key : CacheKey) (override : Option Int)
  (payload : Payload α) (fetch : Query α)

/-- A read that misses, fetches a value and stores it on a store that takes the write panics
exactly when the deadline of the key's lifetime is out of the range of the store's clock,
whatever that clock reads. -/
theorem readThrough_panics_iff {s s₁ : Stage} {st : WatchedStore} {v : α}
    (hmiss : s.store.get key.render = .ok (none, st))
    (hfetch : Stage.run fetch.run { s with store := st } = (.ok v, s₁))
    (hset : s₁.store.allow .set = .ok ()) (hcalm : s₁.store.panicked = none) :
    (Stage.run (b.readThrough key override payload fetch).run s).2.store.panicked =
        some Instant.overflowMessage ↔
      ∃ secs ∈ b.lifetimes.effective key.category override,
        Instant.maxSecs < s₁.store.clock.secs + secs := by
  -- the read is the fetch and the store of its value
  obtain ⟨hrun, -⟩ := readThrough_of_miss b key override payload fetch hmiss
  obtain ⟨-, -, hstored⟩ := fills_run fetch key.render (fun v => Json.compact (payload.encode v))
    (b.lifetimes.effective key.category override) { s with store := st }
  rw [hrun, (hstored v (by rw [hfetch])).1, hfetch, Stage.answer_storeSet_panicked hset, hcalm]
  have hfits := Instant.fits_iff s₁.store.clock (b.lifetimes.effective key.category override)
  by_cases hf : s₁.store.clock.fits (b.lifetimes.effective key.category override) = true
  · -- in range: no panic, and no lifetime passes the range
    have hin := hfits.1 hf
    simp only [hf, if_true, reduceCtorEq, false_iff, not_exists, not_and, not_lt]
    exact hin
  · -- out of range: the panic, and some lifetime passes the range
    have hout : ¬ ∀ secs ∈ b.lifetimes.effective key.category override,
        s₁.store.clock.secs + secs ≤ Instant.maxSecs := fun h => hf (hfits.2 h)
    simp only [hf, Bool.false_eq_true, if_false, true_iff]
    simpa only [not_forall, not_le, exists_prop] using hout

end ReadThrough

/-- Expiry arithmetic of a read, exactly: when the override and the category's seconds are
signed 64-bit numbers, the lifetime the read hands the store is at most the largest of them;
and after a miss and a successful fetch, on a store that takes the write, the read panics exactly
when the second count of the store's clock, whatever it reads, and that lifetime together pass
it. -/
theorem readThrough_panics_iff_out_of_range {α : Type} (b : Binding) (key : CacheKey)
    (override : Option Int) (payload : Payload α) (fetch : Query α)
    (hpolicy : b.lifetimes.secondsFor key.category < (Nat.pow 2 63 : Nat))
    (hoverride : ∀ x ∈ override, x < (Nat.pow 2 63 : Nat))
    {s s₁ : Stage} {st : WatchedStore} {v : α}
    (hmiss : s.store.get key.render = .ok (none, st))
    (hfetch : Stage.run fetch.run { s with store := st } = (.ok v, s₁))
    (hset : s₁.store.allow .set = .ok ()) (hcalm : s₁.store.panicked = none) :
    (∀ secs ∈ b.lifetimes.effective key.category override, secs ≤ Instant.maxSecs) ∧
      ((Stage.run (b.readThrough key override payload fetch).run s).2.store.panicked =
          some Instant.overflowMessage ↔
        ∃ secs ∈ b.lifetimes.effective key.category override,
          Instant.maxSecs < s₁.store.clock.secs + secs) :=
  ⟨Lifetimes.effective_le_maxSecs hpolicy hoverride,
    readThrough_panics_iff b key override payload fetch hmiss hfetch hset hcalm⟩

/-- A read of the table names with the largest override, on a fresh store, whose fetch answers
at once. -/
theorem readThrough_out_of_range_of_largest_override :
    let b : Binding := { space := ⟨"sql", "shop"⟩ }
    let key := b.space.key .schema "table_names"
    let payload : Payload Unit := ⟨fun _ => .null, fun _ => .ok ()⟩
    let read := b.readThrough key (some (Instant.maxSecs : Int)) payload (pure ())
    b.lifetimes.secondsFor key.category < (Nat.pow 2 63 : Nat) ∧
      (∀ x ∈ some (Instant.maxSecs : Int), x < (Nat.pow 2 63 : Nat)) ∧
      ({} : Stage).store.get key.render = .ok (none, {}) ∧
      Stage.run (pure () : Query Unit).run { ({} : Stage) with store := {} } = (.ok (), {}) ∧
      ({} : Stage).store.allow .set = .ok () ∧ ({} : Stage).store.panicked = none ∧
      (∀ secs ∈ b.lifetimes.effective key.category (some (Instant.maxSecs : Int)),
        secs ≤ Instant.maxSecs) ∧
      ((Stage.run read.run {}).2.store.panicked = some Instant.overflowMessage ↔
        ∃ secs ∈ b.lifetimes.effective key.category (some (Instant.maxSecs : Int)),
          Instant.maxSecs < ({} : Stage).store.clock.secs + secs) := by
  intro b key payload read
  have hpolicy : b.lifetimes.secondsFor key.category < (Nat.pow 2 63 : Nat) := by decide
  have hoverride : ∀ x ∈ some (Instant.maxSecs : Int), x < (Nat.pow 2 63 : Nat) := by
    intro x hx
    rw [Option.mem_def, Option.some.injEq] at hx
    subst hx
    decide
  have hmiss : ({} : Stage).store.get key.render = .ok (none, {}) := rfl
  have hfetch : Stage.run (pure () : Query Unit).run { ({} : Stage) with store := {} } =
      (.ok (), {}) := rfl
  have hpanic := readThrough_panics_iff_out_of_range b key _ payload (pure ()) hpolicy hoverride
    hmiss hfetch rfl rfl
  refine ⟨hpolicy, hoverride, hmiss, hfetch, rfl, rfl, ?_⟩
  -- the read is named in the goal; unfolding the name spares the unifier running it
  simpa only [read] using hpanic

end Binding

/-- The largest override of a read of the table names makes the store panic: the clock has
passed its first second, so the deadline is out of its range. -/
theorem tableNames_panics_at_largest_override :
    ((Rehearsal.start { database := { name := "shop" } } true false ⟨2024, 1, 2, 3, 4, 5, 0⟩).perform
      (.tableNames (some Instant.maxSecs))).2.stage.store.panicked =
        some Instant.overflowMessage := by
  decide

end QueryShield
