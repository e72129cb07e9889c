import Mathlib
import QueryShield.Proofs.Json.ReadSteps

/-!
# Reading number texts

The reader takes a number in one pass: the integer digits while they fit in 64 bits, then a
fraction or an exponent, and only at the end turns the digits into a double (`fromParts`).
This module follows that pass over the texts the printer writes.

A step of the pass does not give a value of its own: it steps over some characters and hands
over to the next step.  `Continues x y u t` says so: run on `u` followed by `t`, `x` does what
`y` does on `t`.  Success (`Reads`) and failure (`FailsOn`) of the last step then carry over
to the whole pass (`Continues.reads`, `Continues.failsOn`).

The main results: an integer text is read as the integer (`continues_readNumber_digits`), and
a decimal text, with a point, an exponent or both, is read by scaling its digits with the
power of ten the text shows (`continues_readNumber_point`, `continues_readNumber_exponent`,
`continues_readNumber_point_exponent`).
-/

namespace QueryShield
namespace Json

/-! ## Handing over to the next step -/

/-- `x`, run on the characters `u` followed by `t` from any place, does what `y` does on `t`
from some place: it steps over `u` and hands over to `y`, whether `y` then succeeds or
fails. -/
def Continues {α : Type} (x y : Reading α) (u t : List Char) : Prop :=
  ∀ line column, ∃ line' column', x ⟨u ++ t, line, column⟩ = y ⟨t, line', column'⟩

/-- `x` fails on the text `t`, from any place. -/
def FailsOn {α : Type} (x : Reading α) (t : List Char) : Prop :=
  ∀ line column, ∃ e s, x ⟨t, line, column⟩ = .error e s

variable {α β : Type}

namespace Continues

variable {x y z : Reading α} {u w t r : List Char}

theorem refl (x : Reading α) (t : List Char) : Continues x x [] t :=
  fun l c => ⟨l, c, rfl⟩

theorem of_eq {x y : Reading α} (h : x = y) (t : List Char) : Continues x y [] t :=
  h ▸ refl x t

theorem trans (h₁ : Continues x y u (w ++ t)) (h₂ : Continues y z w t) :
    Continues x z (u ++ w) t := by
  intro l c
  obtain ⟨l₁, c₁, e₁⟩ := h₁ l c
  obtain ⟨l₂, c₂, e₂⟩ := h₂ l₁ c₁
  exact ⟨l₂, c₂, by rw [List.append_assoc, e₁, e₂]⟩

theorem trans_nil (h₁ : Continues x y u t) (h₂ : Continues y z [] t) : Continues x z u t := by
  simpa using h₁.trans (w := []) h₂

/-- A step that hands over to a reading that reads the rest reads the whole. -/
theorem reads {v : α} (h : Continues x y u (w ++ r)) (hy : Reads y w v r) :
    Reads x (u ++ w) v r := by
  intro l c
  obtain ⟨l₁, c₁, e₁⟩ := h l c
  obtain ⟨l₂, c₂, e₂⟩ := hy l₁ c₁
  exact ⟨l₂, c₂, by rw [List.append_assoc, e₁, e₂]⟩

/-- A step that hands over to a failing reading fails. -/
theorem failsOn (h : Continues x y u t) (hy : FailsOn y t) : FailsOn x (u ++ t) := by
  intro l c
  obtain ⟨l₁, c₁, e₁⟩ := h l c
  obtain ⟨e, s, e₂⟩ := hy l₁ c₁
  exact ⟨e, s, by rw [e₁, e₂]⟩

/-- What comes after a step comes after what it hands over to. -/
theorem bind {f : α → Reading β} (h : Continues x y u t) : Continues (x >>= f) (y >>= f) u t := by
  intro l c
  obtain ⟨l₁, c₁, e₁⟩ := h l c
  exact ⟨l₁, c₁, by show EStateM.bind x f _ = EStateM.bind y f _; simp only [EStateM.bind, e₁]⟩

end Continues

/-- A reading followed by more hands over to the rest with the value it read. -/
theorem Reads.continues_bind {x : Reading α} {f : α → Reading β} {u t : List Char} {a : α}
    (h : Reads x u a t) : Continues (x >>= f) (f a) u t := by
  intro l c
  obtain ⟨l₁, c₁, e₁⟩ := h l c
  exact ⟨l₁, c₁, by show EStateM.bind x f _ = _; simp only [EStateM.bind, e₁]⟩

theorem FailsOn.bind {x : Reading α} {f : α → Reading β} {t : List Char} (h : FailsOn x t) :
    FailsOn (x >>= f) t := by
  intro l c
  obtain ⟨e, s, h₁⟩ := h l c
  exact ⟨e, s, by show EStateM.bind x f _ = _; simp only [EStateM.bind, h₁]⟩

theorem failsOn_throw (e : Fault) (t : List Char) : FailsOn (throw e : Reading α) t :=
  fun _ _ => ⟨e, _, rfl⟩

theorem failsOn_failHere (m : String) (t : List Char) : FailsOn (failHere m : Reading α) t :=
  fun _ _ => ⟨_, _, rfl⟩

theorem continues_peek (f : Option Char → Reading α) (t : List Char) :
    Continues (peek >>= f) (f t.head?) [] t :=
  (reads_peek t).continues_bind

theorem continues_remaining (f : Nat → Reading α) (t : List Char) :
    Continues (remaining >>= f) (f t.length) [] t :=
  (reads_remaining t).continues_bind

theorem continues_eat (f : Unit → Reading α) (c : Char) (t : List Char) :
    Continues (eat >>= f) (f ()) [c] t :=
  (reads_eat c t).continues_bind

theorem continues_next (f : Option Char → Reading α) (c : Char) (t : List Char) :
    Continues (next >>= f) (f (some c)) [c] t :=
  (reads_next c t).continues_bind

/-! ## Digits -/

/-- What follows does not start with a digit. -/
def NoDigitAhead (t : List Char) : Prop := ∀ c ∈ t.head?, isDigit c = false

theorem noDigitAhead_cons {c : Char} (h : isDigit c = false) (t : List Char) :
    NoDigitAhead (c :: t) := by
  intro d hd
  rw [List.head?_cons, Option.mem_def, Option.some.injEq] at hd
  exact hd ▸ h

/-- The reader's digits are the decimal digits. -/
theorem isDigit_eq (c : Char) : isDigit c = c.isDigit := rfl

theorem digitValue_lt {c : Char} (h : c.isDigit = true) : digitValue c < 10 := by
  have hc := Char.isDigit_iff_toNat.1 h
  have h0 : '0'.toNat = 48 := rfl
  have h9 : '9'.toNat = 57 := rfl
  simp only [digitValue, h0]
  omega

/-- A run of digits read onto `init` is no smaller than `init`. -/
theorem le_ofDigitChars (ds : List Char) (init : Nat) : init ≤ Nat.ofDigitChars 10 ds init := by
  induction ds generalizing init with
  | nil => simp
  | cons d ds ih =>
    rw [Nat.ofDigitChars_cons]
    exact le_trans (by omega) (ih _)

/-- The reader's step for one more digit is the one `Nat.ofDigitChars` takes. -/
theorem ofDigitChars_cons_digit (d : Char) (ds : List Char) (sig : Nat) :
    Nat.ofDigitChars 10 (d :: ds) sig = Nat.ofDigitChars 10 ds (sig * 10 + digitValue d) := by
  rw [Nat.ofDigitChars_cons, digitValue, Nat.mul_comm]

theorem overflows_eq_false {a d limit : Nat} (hd : d < 10) (h : a * 10 + d ≤ limit) :
    overflows a d limit = false := by
  unfold overflows
  by_cases ha : a = limit / 10
  · simp only [ha, BEq.rfl, Bool.true_and, Bool.or_eq_false_iff, decide_eq_false_iff_not, not_lt]
    omega
  · have hne : (a == limit / 10) = false := beq_eq_false_iff_ne.2 ha
    simp only [hne, Bool.false_and, Bool.or_false, decide_eq_false_iff_not, not_lt]
    omega

/-- A digit that keeps the digits read within `limit` does not overflow. -/
theorem overflows_of_ofDigitChars {d : Char} {ds : List Char} {sig limit : Nat}
    (hd : d.isDigit = true) (h : Nat.ofDigitChars 10 (d :: ds) sig ≤ limit) :
    overflows sig (digitValue d) limit = false := by
  rw [ofDigitChars_cons_digit] at h
  exact overflows_eq_false (digitValue_lt hd) (le_trans (le_ofDigitChars ds _) h)

/-! ## Runs of digits -/

/-- The integer digits after the first are taken while they fit in 64 bits; then the reader
goes on to what ends the number. -/
theorem continues_integerDigits (positive : Bool) {t : List Char} (ht : NoDigitAhead t) :
    ∀ {ds : List Char} {fuel sig : Nat}, Binary64.IsDigits ds → ds.length ≤ fuel →
      Nat.ofDigitChars 10 ds sig ≤ maxUnsigned →
      Continues (integerDigits positive fuel sig)
        (numberEnd positive (Nat.ofDigitChars 10 ds sig)) ds t := by
  intro ds
  induction ds with
  | nil =>
    intro fuel sig _ _ _
    rw [Nat.ofDigitChars_nil]
    cases fuel with
    | zero => exact Continues.of_eq (by rw [integerDigits]) t
    | succ fuel =>
      -- the next character is no digit, or there is none
      rw [integerDigits]
      refine (continues_peek _ t).trans (w := []) (Continues.of_eq ?_ t)
      cases t with
      | nil => rfl
      | cons c t =>
        have hc : isDigit c = false := ht c rfl
        simp only [List.head?_cons, hc, Bool.false_eq_true, if_false]
  | cons d ds ih =>
    intro fuel sig hds hlen hmax
    obtain ⟨fuel, rfl⟩ : ∃ k, fuel = k + 1 := ⟨fuel - 1, by simp at hlen; omega⟩
    have hd : d.isDigit = true := hds d (by simp)
    have hover := overflows_of_ofDigitChars hd hmax
    rw [ofDigitChars_cons_digit] at hmax ⊢
    have hrest := @ih fuel _ (fun c hc => hds c (List.mem_cons_of_mem d hc))
      (by simp at hlen; omega) hmax
    rw [integerDigits]
    refine (continues_peek _ _).trans (w := d :: ds) ?_
    simp only [List.cons_append, List.head?_cons, isDigit_eq, hd, if_true, hover,
      Bool.false_eq_true, if_false]
    exact (continues_eat _ d _).trans hrest

/-- Fraction digits are taken while they fit in 64 bits, each lowering the exponent by one. -/
theorem reads_fractionDigits {t : List Char} (ht : NoDigitAhead t) :
    ∀ {ds : List Char} {fuel sig : Nat} {after : Int}, Binary64.IsDigits ds → ds.length ≤ fuel →
      Nat.ofDigitChars 10 ds sig ≤ maxUnsigned →
      Reads (fractionDigits fuel sig after) ds
        (Nat.ofDigitChars 10 ds sig, after - ds.length, false) t := by
  intro ds
  induction ds with
  | nil =>
    intro fuel sig after _ _ _
    simp only [Nat.ofDigitChars_nil, List.length_nil, Nat.cast_zero, sub_zero]
    cases fuel with
    | zero => exact Reads.of_pure _ t
    | succ fuel =>
      rw [fractionDigits]
      refine (continues_peek _ t).reads (w := []) ?_
      cases t with
      | nil => exact Reads.of_pure _ _
      | cons c t =>
        have hc : isDigit c = false := ht c rfl
        simp only [List.head?_cons, hc, Bool.false_eq_true, if_false]
        exact Reads.of_pure _ _
  | cons d ds ih =>
    intro fuel sig after hds hlen hmax
    obtain ⟨fuel, rfl⟩ : ∃ k, fuel = k + 1 := ⟨fuel - 1, by simp at hlen; omega⟩
    have hd : d.isDigit = true := hds d (by simp)
    have hover := overflows_of_ofDigitChars hd hmax
    rw [ofDigitChars_cons_digit] at hmax ⊢
    have hrest := @ih fuel _ (after - 1)
      (fun c hc => hds c (List.mem_cons_of_mem d hc)) (by simp at hlen; omega) hmax
    have hexp : after - 1 - (ds.length : Int) = after - ((d :: ds).length : Nat) := by
      simp only [List.length_cons, Nat.cast_add, Nat.cast_one]
      ring
    rw [hexp] at hrest
    rw [fractionDigits]
    refine (continues_peek _ _).reads (w := d :: ds) ?_
    simp only [List.cons_append, List.head?_cons, isDigit_eq, hd, if_true, hover,
      Bool.false_eq_true, if_false]
    exact (continues_eat _ d _).reads hrest

/-- Exponent digits are taken while they fit in 32 bits; then the significand is scaled. -/
theorem continues_exponentDigits (positive : Bool) (significand : Nat) (start : Int)
    (positiveExp : Bool) {t : List Char} (ht : NoDigitAhead t) :
    ∀ {ds : List Char} {fuel exp : Nat}, Binary64.IsDigits ds → ds.length ≤ fuel →
      Nat.ofDigitChars 10 ds exp ≤ maxExponent →
      Continues (exponentDigits positive significand start positiveExp fuel exp)
        (scaledBy positive significand start positiveExp (Nat.ofDigitChars 10 ds exp)) ds t := by
  intro ds
  induction ds with
  | nil =>
    intro fuel exp _ _ _
    rw [Nat.ofDigitChars_nil]
    cases fuel with
    | zero => exact Continues.of_eq (by rw [exponentDigits]) t
    | succ fuel =>
      rw [exponentDigits]
      refine (continues_peek _ t).trans (w := []) (Continues.of_eq ?_ t)
      cases t with
      | nil => rfl
      | cons c t =>
        have hc : isDigit c = false := ht c rfl
        simp only [List.head?_cons, hc, Bool.false_eq_true, if_false]
  | cons d ds ih =>
    intro fuel exp hds hlen hmax
    obtain ⟨fuel, rfl⟩ : ∃ k, fuel = k + 1 := ⟨fuel - 1, by simp at hlen; omega⟩
    have hd : d.isDigit = true := hds d (by simp)
    have hover := overflows_of_ofDigitChars hd hmax
    rw [ofDigitChars_cons_digit] at hmax ⊢
    have hrest := @ih fuel _ (fun c hc => hds c (List.mem_cons_of_mem d hc))
      (by simp at hlen; omega) hmax
    rw [exponentDigits]
    refine (continues_peek _ _).trans (w := d :: ds) ?_
    simp only [List.cons_append, List.head?_cons, isDigit_eq, hd, if_true, hover,
      Bool.false_eq_true, if_false]
    exact (continues_eat _ d _).trans hrest

/-! ## Exponents and fractions -/

/-- An exponent within the signed 32-bit range is kept as it is. -/
theorem saturate_of_natAbs_lt {e : Int} (h : e.natAbs < Nat.pow 2 31) : saturate e = e := by
  have h31 : Nat.pow 2 31 = 2147483648 := rfl
  simp only [saturate, h31] at h ⊢
  omega

/-- The exponent a sign and its digits write, added to the exponent so far. -/
theorem scaledBy_of_small (positive : Bool) (sig : Nat) {start e : Int}
    (h : (start + e).natAbs < Nat.pow 2 31) :
    scaledBy positive sig start (decide (0 ≤ e)) e.natAbs = fromParts positive sig (start + e) := by
  unfold scaledBy
  by_cases he : 0 ≤ e
  · have hs : start + (e.natAbs : Int) = start + e := by omega
    simp only [he, decide_true, if_true, hs, saturate_of_natAbs_lt h]
  · have hs : start - (e.natAbs : Int) = start + e := by omega
    simp only [he, decide_false, Bool.false_eq_true, if_false, hs, saturate_of_natAbs_lt h]

/-- An exponent mark, its sign and its digits: the significand is then scaled by the power of
ten the exponent writes. -/
theorem continues_exponentPart (positive : Bool) (sig : Nat) (start e : Int) {t : List Char}
    (ht : NoDigitAhead t) (he : e.natAbs ≤ maxExponent) :
    Continues (exponentPart positive sig start)
      (scaledBy positive sig start (decide (0 ≤ e)) e.natAbs) (Binary64.exponentText e).toList t := by
  obtain ⟨c, ds, hcds⟩ := List.exists_cons_of_ne_nil (Nat.toDigits_ne_nil (n := e.natAbs) (b := 10))
  have hdig := Binary64.isDigits_toDigits e.natAbs
  rw [hcds] at hdig
  have hc : c.isDigit = true := hdig c (by simp)
  have hds : Binary64.IsDigits ds := fun d hd => hdig d (List.mem_cons_of_mem c hd)
  -- the first digit starts the exponent, the others follow it
  have hval : Nat.ofDigitChars 10 ds (digitValue c) = e.natAbs := by
    rw [← Nat.ofDigitChars_ten_toDigits (n := e.natAbs), hcds, ofDigitChars_cons_digit]
    simp
  have hrest (pe : Bool) :
      Continues (exponentDigits positive sig start pe (ds ++ t).length (digitValue c))
        (scaledBy positive sig start pe e.natAbs) ds t := by
    rw [← hval]
    exact continues_exponentDigits positive sig start pe ht hds (by simp) (hval ▸ he)
  rw [Binary64.exponentText_toList, hcds]
  unfold exponentPart
  refine (continues_eat _ 'e' _).trans (w := _ :: c :: ds) ?_
  refine (continues_peek _ _).trans (w := _ :: c :: ds) ?_
  by_cases h0 : 0 ≤ e
  · simp only [h0, if_true, decide_true]
    refine (continues_eat _ '+' _).trans (w := c :: ds) ?_
    simp only [pure_bind]
    refine (continues_next _ c _).trans (w := ds) ?_
    simp only [isDigit_eq, hc, if_true]
    exact (continues_remaining _ _).trans (w := ds) (hrest true)
  · simp only [h0, if_false, decide_false]
    refine (continues_eat _ '-' _).trans (w := c :: ds) ?_
    simp only [pure_bind]
    refine (continues_next _ c _).trans (w := ds) ?_
    simp only [isDigit_eq, hc, if_true]
    exact (continues_remaining _ _).trans (w := ds) (hrest false)

/-- The fraction digits of a number with no exponent: the digits join the significand, and
the exponent goes down by their number. -/
theorem continues_decimalPart (positive : Bool) (sig : Nat) (before : Int) {f t : List Char}
    (ht : NoDigitAhead t) (hend : ∀ c ∈ t.head?, c ≠ 'e' ∧ c ≠ 'E') (hf : Binary64.IsDigits f)
    (hne : f ≠ []) (hmax : Nat.ofDigitChars 10 f sig ≤ maxUnsigned) :
    Continues (decimalPart positive sig before)
      (fromParts positive (Nat.ofDigitChars 10 f sig) (before - f.length)) ('.' :: f) t := by
  have hread := @reads_fractionDigits t ht f (f ++ t).length sig 0 hf (by simp) hmax
  have hafter : ((0 : Int) - (f.length : Int) == 0) = false := by
    have : 0 < f.length := List.length_pos_iff.2 hne
    simp only [beq_eq_false_iff_ne]
    omega
  have hexp : before + (0 - (f.length : Int)) = before - f.length := by ring
  unfold decimalPart
  refine (continues_eat _ '.' _).trans (w := f) ?_
  refine (continues_remaining _ _).trans (w := f) ?_
  refine hread.continues_bind.trans_nil ?_
  simp only [Bool.false_eq_true, if_false, hafter]
  refine (continues_peek _ t).trans (w := []) (Continues.of_eq ?_ t)
  -- no exponent mark follows the fraction
  rcases t with _ | ⟨c, t⟩
  · simp only [List.head?_nil, hexp]
  · obtain ⟨h1, h2⟩ := hend c rfl
    simp only [List.head?_cons, hexp]
    split
    next heq => exact absurd (Option.some.inj heq) h1
    next heq => exact absurd (Option.some.inj heq) h2
    next => rfl

/-- The fraction digits of a number with an exponent: the digits join the significand, and the
exponent text is read next, from the exponent lowered by their number. -/
theorem continues_decimalPart_exponent (positive : Bool) (sig : Nat) (before e : Int)
    {f t : List Char} (ht : NoDigitAhead t) (hf : Binary64.IsDigits f) (hne : f ≠ [])
    (hmax : Nat.ofDigitChars 10 f sig ≤ maxUnsigned) (he : e.natAbs ≤ maxExponent) :
    Continues (decimalPart positive sig before)
      (scaledBy positive (Nat.ofDigitChars 10 f sig) (before - f.length) (decide (0 ≤ e)) e.natAbs)
      ('.' :: (f ++ (Binary64.exponentText e).toList)) t := by
  have hx : (Binary64.exponentText e).toList = 'e' :: (Binary64.exponentText e).toList.tail := by
    rw [Binary64.exponentText_toList]; rfl
  have hread := @reads_fractionDigits ((Binary64.exponentText e).toList ++ t)
    (by rw [hx]; exact noDigitAhead_cons rfl _) f (f ++ (Binary64.exponentText e).toList ++ t).length
    sig 0 hf (by simp) hmax
  have hafter : ((0 : Int) - (f.length : Int) == 0) = false := by
    have : 0 < f.length := List.length_pos_iff.2 hne
    simp only [beq_eq_false_iff_ne]
    omega
  have hexp : before + (0 - (f.length : Int)) = before - f.length := by ring
  unfold decimalPart
  refine (continues_eat _ '.' _).trans (w := f ++ (Binary64.exponentText e).toList) ?_
  refine (continues_remaining _ _).trans (w := f ++ (Binary64.exponentText e).toList) ?_
  refine hread.continues_bind.trans ?_
  simp only [Bool.false_eq_true, if_false, hafter]
  refine (continues_peek _ _).trans (w := (Binary64.exponentText e).toList) ?_
  rw [hx, List.cons_append, List.head?_cons, ← hx, hexp]
  exact continues_exponentPart positive _ _ e ht he

/-! ## Where the number ends -/

/-- What follows a number: no digit, point or exponent mark. -/
def EndsNumber (t : List Char) : Prop :=
  ∀ c ∈ t.head?, isDigit c = false ∧ c ≠ '.' ∧ c ≠ 'e' ∧ c ≠ 'E'

theorem EndsNumber.noDigitAhead {t : List Char} (h : EndsNumber t) : NoDigitAhead t :=
  fun c hc => (h c hc).1

theorem EndsNumber.no_exponent {t : List Char} (h : EndsNumber t) :
    ∀ c ∈ t.head?, c ≠ 'e' ∧ c ≠ 'E' :=
  fun c hc => ⟨(h c hc).2.2.1, (h c hc).2.2.2⟩

/-- Nothing, a comma or a closing bracket ends a number. -/
theorem Closes.endsNumber {t : List Char} (h : Closes t) : EndsNumber t := by
  intro c hc
  rcases h c hc with rfl | rfl | rfl <;> decide

theorem continues_numberEnd_point (positive : Bool) (sig : Nat) (t : List Char) :
    Continues (numberEnd positive sig)
      (decimalPart positive sig 0 >>= fun x => pure (JsonNumber.float x)) [] ('.' :: t) := by
  unfold numberEnd
  exact (continues_peek _ _).trans_nil (Continues.refl _ _)

theorem continues_numberEnd_exponent (positive : Bool) (sig : Nat) (t : List Char) :
    Continues (numberEnd positive sig)
      (exponentPart positive sig 0 >>= fun x => pure (JsonNumber.float x)) [] ('e' :: t) := by
  unfold numberEnd
  exact (continues_peek _ _).trans_nil (Continues.refl _ _)

/-- A number with no fraction and no exponent is its integer: unsigned without a sign. -/
theorem reads_numberEnd_unsigned (sig : Nat) {t : List Char} (ht : EndsNumber t) :
    Reads (numberEnd true sig) [] (.unsigned sig) t := by
  unfold numberEnd
  refine (continues_peek _ t).reads (w := []) ?_
  rcases t with _ | ⟨c, t⟩
  · exact Reads.of_pure _ _
  · obtain ⟨-, h1, h2, h3⟩ := ht c rfl
    simp only [List.head?_cons]
    split
    next heq => exact absurd (Option.some.inj heq) h1
    next heq => exact absurd (Option.some.inj heq) h2
    next heq => exact absurd (Option.some.inj heq) h3
    next => exact Reads.of_pure _ _

/-- A number with a sign, no fraction and no exponent, down to `-2^63`, is a negative integer. -/
theorem reads_numberEnd_signed {sig : Nat} (hpos : 0 < sig) (hle : sig ≤ Nat.pow 2 63)
    {t : List Char} (ht : EndsNumber t) :
    Reads (numberEnd false sig) [] (.signed (-(sig : Int))) t := by
  have hz : (sig == 0) = false := by simpa using hpos.ne'
  have hr : Reads (if false = true then pure (JsonNumber.unsigned sig)
      else if (sig == 0) = true then pure (.float (Binary64.zero true))
      else if sig ≤ Nat.pow 2 63 then pure (.signed (-(sig : Int)))
      else pure (.float (Binary64.ofNat sig).negate) : Reading JsonNumber) [] (.signed (-(sig : Int))) t := by
    simp only [Bool.false_eq_true, if_false, hz, if_pos hle]
    exact Reads.of_pure _ _
  unfold numberEnd
  refine (continues_peek _ t).reads (w := []) ?_
  rcases t with _ | ⟨c, t⟩
  · exact hr
  · obtain ⟨-, h1, h2, h3⟩ := ht c rfl
    simp only [List.head?_cons]
    split
    next heq => exact absurd (Option.some.inj heq) h1
    next heq => exact absurd (Option.some.inj heq) h2
    next heq => exact absurd (Option.some.inj heq) h3
    next => exact hr

/-! ## Whole numbers -/

/-- A number whose first digit is `0` is that zero, and what follows it must not be a digit. -/
theorem continues_readNumber_zero (positive : Bool) {t : List Char} (ht : NoDigitAhead t) :
    Continues (readNumber positive) (numberEnd positive 0) ['0'] t := by
  unfold readNumber
  refine (continues_next _ '0' _).trans_nil ?_
  refine (continues_peek _ t).trans (w := []) (Continues.of_eq ?_ t)
  rcases t with _ | ⟨c, t⟩
  · rfl
  · have hc : isDigit c = false := ht c rfl
    simp only [List.head?_cons, hc, Bool.false_eq_true, if_false]

/-- A number whose first digit is not `0` takes its digits while they fit in 64 bits. -/
theorem continues_readNumber_digits (positive : Bool) {c : Char} {ws t : List Char}
    (hw : Binary64.IsDigits (c :: ws)) (hc0 : c ≠ '0') (ht : NoDigitAhead t)
    (hmax : Nat.ofDigitChars 10 (c :: ws) 0 ≤ maxUnsigned) :
    Continues (readNumber positive) (numberEnd positive (Nat.ofDigitChars 10 (c :: ws) 0))
      (c :: ws) t := by
  have hc : c.isDigit = true := hw c (by simp)
  rw [ofDigitChars_cons_digit, Nat.zero_mul, Nat.zero_add] at hmax ⊢
  unfold readNumber
  refine (continues_next _ c _).trans (w := ws) ?_
  split
  next heq => cases heq
  next heq => exact absurd (Option.some.inj heq) hc0
  next d _ heq =>
    obtain rfl : c = d := Option.some.inj heq
    simp only [isDigit_eq, hc, if_true]
    refine (continues_remaining _ _).trans (w := ws) ?_
    rw [List.length_append]
    exact (@continues_integerDigits positive t ht ws (ws.length + t.length) _
      (fun d hd => hw d (List.mem_cons_of_mem c hd)) (by omega) hmax)

/-- Leading digits as the printer writes them: `0` alone, or a first digit that is not `0`. -/
def LeadDigits (w : List Char) : Prop :=
  Binary64.IsDigits w ∧ (w = ['0'] ∨ ∃ c ws, w = c :: ws ∧ c ≠ '0')

/-- The leading digits of a number are read as their value; the reader goes on with what
ends the number. -/
theorem continues_readNumber (positive : Bool) {w t : List Char} (hw : LeadDigits w)
    (ht : NoDigitAhead t) (hmax : Nat.ofDigitChars 10 w 0 ≤ maxUnsigned) :
    Continues (readNumber positive) (numberEnd positive (Nat.ofDigitChars 10 w 0)) w t := by
  obtain ⟨hd, rfl | ⟨c, ws, rfl, hc0⟩⟩ := hw
  · exact continues_readNumber_zero positive ht
  · exact continues_readNumber_digits positive hd hc0 ht hmax

/-! ## Decimal texts -/

theorem noDigitAhead_point (t : List Char) : NoDigitAhead ('.' :: t) := noDigitAhead_cons rfl t

theorem noDigitAhead_exponentText (e : Int) (t : List Char) :
    NoDigitAhead ((Binary64.exponentText e).toList ++ t) := by
  rw [Binary64.exponentText_toList]
  exact noDigitAhead_cons rfl _

/-- Leading digits, a point and fraction digits: the digits are scaled down by the number of
fraction digits. -/
theorem continues_readNumber_point (positive : Bool) {w f t : List Char} (hw : LeadDigits w)
    (hf : Binary64.IsDigits f) (hne : f ≠ []) (ht : EndsNumber t)
    (hmax : Nat.ofDigitChars 10 (w ++ f) 0 ≤ maxUnsigned) :
    Continues (readNumber positive)
      (fromParts positive (Nat.ofDigitChars 10 (w ++ f) 0) (-(f.length : Int)) >>=
        fun x => pure (JsonNumber.float x)) (w ++ '.' :: f) t := by
  rw [Nat.ofDigitChars_append] at hmax ⊢
  have hw0 := le_trans (le_ofDigitChars f _) hmax
  have hlead := continues_readNumber positive hw (noDigitAhead_point (f ++ t)) hw0
  have hfrac := (continues_decimalPart positive _ 0 ht.noDigitAhead ht.no_exponent hf hne hmax).bind
    (f := fun x => pure (JsonNumber.float x))
  rw [zero_sub] at hfrac
  exact hlead.trans ((continues_numberEnd_point positive _ (f ++ t)).trans hfrac)

/-- Leading digits and an exponent: the digits are scaled by the exponent. -/
theorem continues_readNumber_exponent (positive : Bool) {w t : List Char} (e : Int)
    (hw : LeadDigits w) (ht : NoDigitAhead t) (hmax : Nat.ofDigitChars 10 w 0 ≤ maxUnsigned)
    (he : e.natAbs < Nat.pow 2 31 - 1) :
    Continues (readNumber positive)
      (fromParts positive (Nat.ofDigitChars 10 w 0) e >>= fun x => pure (JsonNumber.float x))
      (w ++ (Binary64.exponentText e).toList) t := by
  have hmaxExp : e.natAbs ≤ maxExponent := by unfold maxExponent; omega
  have hlead := continues_readNumber positive hw (noDigitAhead_exponentText e t) hmax
  have hexp := (continues_exponentPart positive (Nat.ofDigitChars 10 w 0) 0 e ht hmaxExp).bind
    (f := fun x => pure (JsonNumber.float x))
  rw [scaledBy_of_small _ _ (by omega), zero_add] at hexp
  have hx : (Binary64.exponentText e).toList = 'e' :: (Binary64.exponentText e).toList.tail := by
    rw [Binary64.exponentText_toList]; rfl
  have hend := continues_numberEnd_exponent positive (Nat.ofDigitChars 10 w 0)
    ((Binary64.exponentText e).toList.tail ++ t)
  rw [← List.cons_append, ← hx] at hend
  exact hlead.trans (hend.trans hexp)

/-- Leading digits, a point, fraction digits and an exponent: the digits are scaled by the
exponent less the number of fraction digits. -/
theorem continues_readNumber_point_exponent (positive : Bool) {w f t : List Char} (e : Int)
    (hw : LeadDigits w) (hf : Binary64.IsDigits f) (hne : f ≠ []) (ht : NoDigitAhead t)
    (hmax : Nat.ofDigitChars 10 (w ++ f) 0 ≤ maxUnsigned)
    (he : e.natAbs + f.length < Nat.pow 2 31 - 1) :
    Continues (readNumber positive)
      (fromParts positive (Nat.ofDigitChars 10 (w ++ f) 0) (e - f.length) >>=
        fun x => pure (JsonNumber.float x))
      (w ++ '.' :: (f ++ (Binary64.exponentText e).toList)) t := by
  rw [Nat.ofDigitChars_append] at hmax ⊢
  have hmaxExp : e.natAbs ≤ maxExponent := by unfold maxExponent; omega
  have hw0 := le_trans (le_ofDigitChars f _) hmax
  have hlead := continues_readNumber positive hw
    (noDigitAhead_point (f ++ (Binary64.exponentText e).toList ++ t)) hw0
  have hfrac := (continues_decimalPart_exponent positive _ 0 e ht hf hne hmax hmaxExp).bind
    (f := fun x => pure (JsonNumber.float x))
  rw [scaledBy_of_small _ _ (by omega), zero_sub, neg_add_eq_sub] at hfrac
  have hend := continues_numberEnd_point positive (Nat.ofDigitChars 10 w 0)
    (f ++ (Binary64.exponentText e).toList ++ t)
  have hmid : Continues (numberEnd positive (Nat.ofDigitChars 10 w 0))
      (fromParts positive (Nat.ofDigitChars 10 f (Nat.ofDigitChars 10 w 0)) (e - f.length) >>=
        fun x => pure (JsonNumber.float x))
      ('.' :: (f ++ (Binary64.exponentText e).toList)) t := hend.trans hfrac
  exact hlead.trans hmid

end Json
end QueryShield
