import Mathlib
import QueryShield.Query.Talk

/-!
# What a conversation asks, and what it ends with

A conversation answers no question about its backends by itself: whether a statement is safe
to send, or which keys a write deletes, is a property of the requests it makes along every
run.  `Talk.Sat P Q t` says that every request `t` can make, whatever the answers to the
requests before it, satisfies `P`, and that every result it can end with satisfies `Q`.  It is
a Hoare triple without a state: the backend is arbitrary, so the precondition is `True`.

The rules below follow the constructors (`done`, `ask`) and the monad (`pure`, `bind`); for a
query they are restated over its result, where a failure carries no obligation.  A run against
any backend then keeps both halves: every request of `Talk.requests` satisfies `P` and the
result of `Talk.run` satisfies `Q`.
-/

namespace QueryShield
namespace Talk

variable {α β σ : Type}

/-- Every request of the conversation satisfies `P`, whatever the answers, and every result it
can end with satisfies `Q`. -/
def Sat (P : Request → Prop) (Q : α → Prop) : Talk α → Prop
  | .done a => Q a
  | .ask r next => P r ∧ ∀ x, Sat P Q (next x)

@[simp] theorem sat_done {P : Request → Prop} {Q : α → Prop} {a : α} :
    Sat P Q (.done a) ↔ Q a := Iff.rfl

@[simp] theorem sat_ask {P : Request → Prop} {Q : α → Prop} {r : Request}
    {next : r.Answer → Talk α} : Sat P Q (.ask r next) ↔ P r ∧ ∀ x, Sat P Q (next x) := Iff.rfl

theorem bind_eq (t : Talk α) (f : α → Talk β) : t >>= f = Talk.bind t f := rfl

theorem bind_done_right (t : Talk α) : Talk.bind t .done = t := by
  induction t with
  | done a => rfl
  | ask r next ih => simp only [Talk.bind, ih]

theorem bind_bind {γ : Type} (t : Talk α) (f : α → Talk β) (g : β → Talk γ) :
    Talk.bind (Talk.bind t f) g = Talk.bind t fun a => Talk.bind (f a) g := by
  induction t with
  | done a => rfl
  | ask r next ih => simp only [Talk.bind, ih]

instance : LawfulMonad Talk :=
  LawfulMonad.mk' Talk (fun x => bind_done_right x) (fun _ _ => rfl) (fun x f g => bind_bind x f g)

/-- The consequence rule: a weaker request condition and a weaker result condition. -/
theorem Sat.mono {P P' : Request → Prop} {Q Q' : α → Prop} {t : Talk α} (h : Sat P Q t)
    (hP : ∀ r, P r → P' r) (hQ : ∀ a, Q a → Q' a) : Sat P' Q' t := by
  induction t with
  | done a => exact hQ a h
  | ask r next ih => exact ⟨hP r h.1, fun x => ih x (h.2 x)⟩

/-- Sequencing: the requests of the first conversation, then those of the one its result
chooses. -/
theorem Sat.bind {P : Request → Prop} {R : α → Prop} {Q : β → Prop} {t : Talk α}
    {f : α → Talk β} (ht : Sat P R t) (hf : ∀ a, R a → Sat P Q (f a)) :
    Sat P Q (t >>= f) := by
  induction t with
  | done a => exact hf a ht
  | ask r next ih => exact ⟨ht.1, fun x => ih x (ht.2 x)⟩

theorem sat_request {P : Request → Prop} {r : Request} (h : P r) :
    Sat P (fun _ => True) (request r) :=
  ⟨h, fun _ => trivial⟩

/-- Along every run, every request made satisfies the request condition. -/
theorem Sat.requests {P : Request → Prop} {Q : α → Prop} {t : Talk α} (h : Sat P Q t)
    (answer : (r : Request) → σ → r.Answer × σ) (s : σ) :
    ∀ r ∈ Talk.requests answer t s, P r := by
  induction t generalizing s with
  | done a => simp
  | ask r next ih =>
    intro r' hr'
    simp only [Talk.requests, List.mem_cons] at hr'
    rcases hr' with rfl | hr'
    · exact h.1
    · exact ih _ (h.2 _) _ r' hr'

/-- Every run ends with a result that satisfies the result condition. -/
theorem Sat.run {P : Request → Prop} {Q : α → Prop} {t : Talk α} (h : Sat P Q t)
    (answer : (r : Request) → σ → r.Answer × σ) (s : σ) : Q (Talk.run answer t s).1 := by
  induction t generalizing s with
  | done a => exact h
  | ask r next ih => exact ih _ (h.2 _) _

/-- A property of the backend's state that every request the conversation may make keeps
holds after every run. -/
theorem Sat.run_inv {P : Request → Prop} {Q : α → Prop} {t : Talk α} (h : Sat P Q t)
    {answer : (r : Request) → σ → r.Answer × σ} {I : σ → Prop}
    (hstep : ∀ r s, P r → I s → I (answer r s).2) {s : σ} (hs : I s) :
    I (Talk.run answer t s).2 := by
  induction t generalizing s with
  | done a => exact hs
  | ask r next ih => exact ih _ (h.2 _) (hstep r s h.1 hs)

/-- Every conversation satisfies the empty conditions. -/
theorem sat_true (t : Talk α) : Sat (fun _ => True) (fun _ => True) t := by
  induction t with
  | done a => exact sat_done.2 trivial
  | ask r next ih => exact sat_ask.2 ⟨trivial, ih⟩

end Talk

namespace Query

variable {ε α β : Type}

/-- Every request of the conversation satisfies `P`, whatever the answers, and every value it
succeeds with satisfies `Q`; a failure carries no obligation.  Queries are the case
`ε = QueryFault`; the cache's deletions fail with store faults. -/
def Sat (P : Request → Prop) (Q : α → Prop) (x : ExceptT ε Talk α) : Prop :=
  Talk.Sat P (fun r => ∀ a, r = .ok a → Q a) x.run

theorem Sat.mono {P P' : Request → Prop} {Q Q' : α → Prop} {x : ExceptT ε Talk α}
    (h : Sat P Q x) (hP : ∀ r, P r → P' r) (hQ : ∀ a, Q a → Q' a) : Sat P' Q' x :=
  Talk.Sat.mono h hP fun _ hr a ha => hQ a (hr a ha)

theorem sat_pure {P : Request → Prop} {Q : α → Prop} {a : α} (h : Q a) :
    Sat P Q (pure a : ExceptT ε Talk α) := by
  rintro a' ⟨⟩
  exact h

theorem sat_throw {P : Request → Prop} {Q : α → Prop} (e : ε) :
    Sat P Q (throw e : ExceptT ε Talk α) := by
  rintro a ⟨⟩

theorem sat_fail {P : Request → Prop} {Q : α → Prop} (e : QueryFault) :
    Sat P Q (fail e) := sat_throw e

/-- Sequencing over a query: a failure of the first ends the query with no further request. -/
theorem Sat.bind {P : Request → Prop} {R : α → Prop} {Q : β → Prop} {x : ExceptT ε Talk α}
    {f : α → ExceptT ε Talk β} (hx : Sat P R x) (hf : ∀ a, R a → Sat P Q (f a)) :
    Sat P Q (x >>= f) := by
  show Talk.Sat P _ (Talk.bind x.run _)
  refine Talk.Sat.bind hx ?_
  intro r hr
  cases r with
  | error e => rintro a ⟨⟩
  | ok a => exact hf a (hr a rfl)

theorem Sat.map {P : Request → Prop} {R : α → Prop} {Q : β → Prop} {x : ExceptT ε Talk α}
    {g : α → β} (hx : Sat P R x) (hg : ∀ a, R a → Q (g a)) : Sat P Q (g <$> x) := by
  rw [map_eq_pure_bind]
  exact hx.bind fun a ha => sat_pure (hg a ha)

/-- A conversation lifted into one that may fail. -/
theorem sat_lift {P : Request → Prop} {t : Talk α} (h : Talk.Sat P (fun _ => True) t) :
    Sat P (fun _ => True) (ExceptT.lift t : ExceptT ε Talk α) :=
  Talk.Sat.bind h fun _ _ => fun _ _ => trivial

/-- A conversation whose result is itself the success or the failure. -/
theorem sat_mk {P : Request → Prop} {t : Talk (Except ε α)} (h : Talk.Sat P (fun _ => True) t) :
    Sat P (fun _ => True) (ExceptT.mk t) :=
  Talk.Sat.mono h (fun _ hr => hr) fun _ _ _ _ => trivial

/-- The conversation under a query, read with its failures as plain results. -/
theorem Sat.talk {P : Request → Prop} {Q : α → Prop} {x : ExceptT ε Talk α} (h : Sat P Q x) :
    Talk.Sat P (fun _ => True) x.run :=
  Talk.Sat.mono h (fun _ hr => hr) fun _ _ => trivial

theorem sat_ask {P : Request → Prop} {r : Request} (h : P r) :
    Sat P (fun _ => True) (ask r) :=
  sat_lift (Talk.sat_request h)

theorem sat_guard {P : Request → Prop} {Q : α → Prop} {x : Except GuardError α}
    (h : ∀ a, x = .ok a → Q a) : Sat P Q (guard x) := by
  cases x with
  | error e => exact sat_fail _
  | ok a => exact sat_pure (h a rfl)

theorem sat_fetch {P : Request → Prop} {sql : String} {params : List Datum}
    (h : P (.fetch sql params)) : Sat P (fun _ => True) (fetch sql params) := by
  refine (sat_ask h).bind fun r _ => ?_
  cases r with
  | ok rows => exact sat_pure trivial
  | error f => exact sat_fail _

theorem sat_execute {P : Request → Prop} {sql : String} {params : List Datum}
    (h : P (.execute sql params)) : Sat P (fun _ => True) (execute sql params) := by
  refine (sat_ask h).bind fun r _ => ?_
  cases r with
  | ok w => exact sat_pure trivial
  | error f => exact sat_fail _

theorem sat_ite {P : Request → Prop} {Q : α → Prop} {c : Prop} [Decidable c]
    {x y : ExceptT ε Talk α}
    (hx : c → Sat P Q x) (hy : ¬c → Sat P Q y) : Sat P Q (if c then x else y) := by
  by_cases hc : c
  · simpa [hc] using hx hc
  · simpa [hc] using hy hc

/-- Two branches that go on the same way: the shape `do` gives a choice followed by more. -/
theorem sat_ite_bind {P : Request → Prop} {R : α → Prop} {Q : β → Prop} {c : Prop} [Decidable c]
    {x y : ExceptT ε Talk α} {k : α → ExceptT ε Talk β} (hx : Sat P R x) (hy : Sat P R y)
    (hk : ∀ a, R a → Sat P Q (k a)) : Sat P Q (if c then x >>= k else y >>= k) :=
  sat_ite (fun _ => hx.bind hk) fun _ => hy.bind hk

/-- A query run on every item of a list succeeds with items that each satisfy `Q`. -/
theorem sat_mapM {P : Request → Prop} {Q : β → Prop} {f : α → ExceptT ε Talk β} (l : List α)
    (hf : ∀ a ∈ l, Sat P Q (f a)) : Sat P (fun bs => ∀ b ∈ bs, Q b) (l.mapM f) := by
  induction l with
  | nil => exact sat_pure (by simp)
  | cons a l ih =>
    rw [List.mapM_cons]
    refine (hf a (by simp)).bind fun b hb => ?_
    refine (ih fun a' ha' => hf a' (by simp [ha'])).bind fun bs hbs => ?_
    refine sat_pure fun b' hb' => ?_
    rcases List.mem_cons.1 hb' with rfl | hb'
    · exact hb
    · exact hbs b' hb'

/-- A fold over a list whose every step keeps an invariant of the accumulator. -/
theorem sat_foldlM {P : Request → Prop} {I : β → Prop} {f : β → α → ExceptT ε Talk β}
    (l : List α)
    {init : β} (hinit : I init) (hf : ∀ b, I b → ∀ a ∈ l, Sat P I (f b a)) :
    Sat P I (l.foldlM f init) := by
  induction l generalizing init with
  | nil => exact sat_pure hinit
  | cons a l ih =>
    rw [List.foldlM_cons]
    exact (hf init hinit a (by simp)).bind fun b hb =>
      ih hb fun b' hb' a' ha' => hf b' hb' a' (by simp [ha'])

/-- Along every run of a query, every request made satisfies the request condition. -/
theorem Sat.requests {σ : Type} {P : Request → Prop} {Q : α → Prop} {x : ExceptT ε Talk α}
    (h : Sat P Q x) (answer : (r : Request) → σ → r.Answer × σ) (s : σ) :
    ∀ r ∈ Talk.requests answer x.run s, P r :=
  Talk.Sat.requests h answer s

/-- A property of the backend's state that every request the query may make keeps holds after
every run, whether the query succeeds or fails. -/
theorem Sat.run_inv {σ : Type} {P : Request → Prop} {Q : α → Prop} {x : ExceptT ε Talk α}
    (h : Sat P Q x) {answer : (r : Request) → σ → r.Answer × σ} {I : σ → Prop}
    (hstep : ∀ r s, P r → I s → I (answer r s).2) {s : σ} (hs : I s) :
    I (Talk.run answer x.run s).2 :=
  Talk.Sat.run_inv h hstep hs

/- From here on a triple is read through its rules only: unfolding it on a concrete query
would make Lean evaluate the query's checks. -/
attribute [irreducible] Sat Talk.Sat

end Query

/-! ## Checks

A check that talks to no backend is an `Except`.  Its runs are peeled apart the same way: a
bind that succeeds had a first step that succeeded, and a loop that succeeds kept every
invariant its steps keep. -/

section Checks

variable {ε α β : Type}

theorem exists_of_bind_eq_ok {x : Except ε α} {f : α → Except ε β} {b : β}
    (h : (x >>= f) = .ok b) : ∃ a, x = .ok a ∧ f a = .ok b := by
  cases x with
  | error e => cases h
  | ok a => exact ⟨a, rfl, h⟩

/-- A map that succeeds gives one result per item, each the item's own. -/
theorem mapM_eq_ok {f : α → Except ε β} {l : List α} {bs : List β} (h : l.mapM f = .ok bs) :
    bs.length = l.length ∧ ∀ b ∈ bs, ∃ a ∈ l, f a = .ok b := by
  induction l generalizing bs with
  | nil =>
    cases h
    simp
  | cons a l ih =>
    rw [List.mapM_cons] at h
    obtain ⟨b, hb, h⟩ := exists_of_bind_eq_ok h
    obtain ⟨bs', hbs', h⟩ := exists_of_bind_eq_ok h
    cases h
    obtain ⟨hlen, hmem⟩ := ih hbs'
    refine ⟨by simp [hlen], fun b' hb' => ?_⟩
    rcases List.mem_cons.1 hb' with rfl | hb'
    · exact ⟨a, by simp, hb⟩
    · obtain ⟨a', ha', hfa'⟩ := hmem b' hb'
      exact ⟨a', by simp [ha'], hfa'⟩

/-- A fold whose every successful step keeps an invariant ends, if it succeeds, in a state
that has it. -/
theorem foldlM_inv {f : β → α → Except ε β} {I : β → Prop} {l : List α} {init r : β}
    (hinit : I init) (hf : ∀ b a b', a ∈ l → I b → f b a = .ok b' → I b')
    (h : l.foldlM f init = .ok r) : I r := by
  induction l generalizing init with
  | nil =>
    cases h
    exact hinit
  | cons a l ih =>
    rw [List.foldlM_cons] at h
    obtain ⟨b, hb, h⟩ := exists_of_bind_eq_ok h
    exact ih (hf init a b (by simp) hinit hb)
      (fun b a b' ha => hf b a b' (by simp [ha])) h

/-- A loop whose every successful step keeps an invariant ends, if it succeeds, in a state
that has it, whether it runs to the end or stops early. -/
theorem forIn_inv {f : α → β → Except ε (ForInStep β)} {I : β → Prop} {l : List α}
    {init r : β} (hinit : I init)
    (hf : ∀ a b s, a ∈ l → I b → f a b = .ok s → I s.value) (h : forIn l init f = .ok r) :
    I r := by
  induction l generalizing init with
  | nil =>
    cases h
    exact hinit
  | cons a l ih =>
    rw [List.forIn_cons] at h
    obtain ⟨s, hs, h⟩ := exists_of_bind_eq_ok h
    have hI : I s.value := hf a init s (by simp) hinit hs
    cases s with
    | done b =>
      cases h
      exact hI
    | yield b => exact ih hI (fun a b s ha => hf a b s (by simp [ha])) h

/-! ### Runs of a query

A query runs as its conversation; sequencing runs the second query from where the first left
off, unless the first failed. -/

section Runs

variable {σ : Type} {answer : (r : Request) → σ → r.Answer × σ}

theorem run_bind_ok {x : ExceptT ε Talk α} {f : α → ExceptT ε Talk β} {s s' : σ} {a : α}
    (h : Talk.run answer x.run s = (.ok a, s')) :
    Talk.run answer (x >>= f).run s = Talk.run answer (f a).run s' := by
  show Talk.run answer (Talk.bind x.run _) s = _
  rw [Talk.run_bind, h]
  rfl

theorem run_bind_error {x : ExceptT ε Talk α} {f : α → ExceptT ε Talk β} {s s' : σ} {e : ε}
    (h : Talk.run answer x.run s = (.error e, s')) :
    Talk.run answer (x >>= f).run s = (.error e, s') := by
  show Talk.run answer (Talk.bind x.run _) s = _
  rw [Talk.run_bind, h]
  rfl

theorem run_request (r : Request) (s : σ) : Talk.run answer (Talk.request r) s = answer r s := by
  simp only [Talk.request, Talk.run]

theorem run_pure (a : α) (s : σ) :
    Talk.run answer (pure a : ExceptT ε Talk α).run s = (.ok a, s) := rfl

theorem run_lift (t : Talk α) (s : σ) :
    Talk.run answer (ExceptT.lift t : ExceptT ε Talk α).run s =
      (.ok (Talk.run answer t s).1, (Talk.run answer t s).2) := by
  show Talk.run answer (Talk.bind t _) s = _
  rw [Talk.run_bind]
  rfl

/-- Mapping the value of a query maps the value of its run and leaves the backend's state. -/
theorem run_map (g : α → β) (x : ExceptT ε Talk α) (s : σ) :
    Talk.run answer (g <$> x).run s =
      ((Talk.run answer x.run s).1.map g, (Talk.run answer x.run s).2) := by
  rw [map_eq_pure_bind]
  rcases h : Talk.run answer x.run s with ⟨_ | a, s'⟩
  · rw [run_bind_error h]
    rfl
  · rw [run_bind_ok h]
    rfl

/-- A fold whose every step succeeds and keeps an invariant of the elements still to come
succeeds, and ends with the invariant of none left. -/
theorem run_foldlM {f : β → α → ExceptT ε Talk β} {I : List α → σ → Prop}
    (hstep : ∀ a rest b s, I (a :: rest) s →
      ∃ b' s', Talk.run answer (f b a).run s = (.ok b', s') ∧ I rest s') :
    ∀ (l : List α) (b : β) (s : σ), I l s →
      ∃ b' s', Talk.run answer (l.foldlM f b).run s = (.ok b', s') ∧ I [] s' := by
  intro l
  induction l with
  | nil => exact fun b s hs => ⟨b, s, rfl, hs⟩
  | cons a rest ih =>
    intro b s hs
    obtain ⟨b', s', hrun, hs'⟩ := hstep a rest b s hs
    obtain ⟨b'', s'', hrun', hs''⟩ := ih b' s' hs'
    refine ⟨b'', s'', ?_, hs''⟩
    rw [List.foldlM_cons, run_bind_ok hrun, hrun']

end Runs

end Checks

end QueryShield
