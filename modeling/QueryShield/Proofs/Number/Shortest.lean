import Mathlib
import QueryShield.Proofs.Number.Rounding

/-!
# The shortest digits read back

`shortestOf m q lowerHalf` looks for few decimal digits that round back to the double
`m · 2^q`: from an estimate of its decimal exponent it tries the grids of `1, 2, …, 17`
significant digits, taking the grid point below the value or the one above it when either lies
in the rounding interval, and strips trailing zeros.  This module proves that what it returns
is a positive digit string `d` with exponent `k` and `d · 10^k` in the rounding interval
(`shortestOf_spec`), so that reading it as a decimal gives the value back
(`ofDecimal_shortestOf`).

Three facts carry the proof.  Each candidate the search accepts passed a test that is exactly
membership of the interval (`inside_iff`, through `compareScaled_eq`).  The estimate of the
exponent, corrected twice down and twice up, never exceeds the true exponent
(`decimalExponent_spec`): the estimate `30103 / 100000` per binary digit errs by far less
than the two corrections down (`ten_zpow_le_two_zpow`).  And at 17 digits the grid is finer
than the interval is wide, so the grid point below the value or the next one lies in it
(`nearest_floor_or_succ`): the search never falls through to its fallback.
-/

namespace QueryShield
namespace Binary64

/-! ## Comparisons in ℚ -/


theorem compareScaled_eq (c : Nat) (k : Int) (x : Nat) (e : Int) :
    compareScaled c k x e = compare ((c : ℚ) * 10 ^ k) ((x : ℚ) * 2 ^ e) := by
  -- both sides of the comparison are the rational ones times `10^(-k)⁺ · 2^(-e)⁺`
  have hS : (0 : ℚ) < 10 ^ (-k).toNat * 2 ^ (-e).toNat := by positivity
  have hl : ((c * Nat.pow 10 k.toNat * Nat.pow 2 (-e).toNat : Nat) : ℚ) =
      (c : ℚ) * 10 ^ k * (10 ^ (-k).toNat * 2 ^ (-e).toNat) := by
    rw [← zpow_toNat_div 10 k]
    push_cast [Nat.pow_eq]
    field_simp
  have hr : ((x * Nat.pow 2 e.toNat * Nat.pow 10 (-k).toNat : Nat) : ℚ) =
      (x : ℚ) * 2 ^ e * (10 ^ (-k).toNat * 2 ^ (-e).toNat) := by
    rw [← zpow_toNat_div 2 e]
    push_cast [Nat.pow_eq]
    field_simp
  unfold compareScaled
  rcases lt_trichotomy ((c : ℚ) * 10 ^ k) ((x : ℚ) * 2 ^ e) with h | h | h
  · rw [compare_lt_iff_lt.2 h, compare_lt_iff_lt, ← Nat.cast_lt (α := ℚ), hl, hr]
    exact mul_lt_mul_of_pos_right h hS
  · rw [compare_eq_iff_eq.2 h, compare_eq_iff_eq, ← Nat.cast_inj (R := ℚ), hl, hr, h]
  · rw [compare_gt_iff_gt.2 h, compare_gt_iff_gt, ← Nat.cast_lt (α := ℚ), hl, hr]
    exact mul_lt_mul_of_pos_right h hS

theorem mul_two_zpow_lt_iff {a r : ℚ} {q : Int} : a * 2 ^ q < r ↔ a < r * 2 ^ (-q) := by
  rw [zpow_neg, ← div_eq_mul_inv, lt_div_iff₀ (zpow_pos (by norm_num) q)]

theorem lt_mul_two_zpow_iff {a r : ℚ} {q : Int} : r < a * 2 ^ q ↔ r * 2 ^ (-q) < a := by
  rw [zpow_neg, ← div_eq_mul_inv, div_lt_iff₀ (zpow_pos (by norm_num) q)]

theorem eq_mul_two_zpow_iff {a r : ℚ} {q : Int} : r = a * 2 ^ q ↔ r * 2 ^ (-q) = a := by
  rw [zpow_neg, ← div_eq_mul_inv, div_eq_iff (zpow_ne_zero q (by norm_num))]

/-! ## The test of a candidate -/

/-- The test `shortestOf` makes of a candidate `c · 10^k` is membership of the rounding
interval. -/
theorem inside_iff {m : Nat} (hm : 0 < m) (q : Int) (lh : Bool) (c : Nat) (k : Int) :
    ((compareScaled c k (if lh = true then 4 * m - 1 else 4 * m - 2) (q - 2) == Ordering.gt ||
          m % 2 == 0 &&
            compareScaled c k (if lh = true then 4 * m - 1 else 4 * m - 2) (q - 2) == Ordering.eq) &&
        (compareScaled c k (4 * m + 2) (q - 2) == Ordering.lt ||
          m % 2 == 0 && compareScaled c k (4 * m + 2) (q - 2) == Ordering.eq)) = true ↔
      Nearest m q lh ((c : ℚ) * 10 ^ k) := by
  have hquarter : (2 : ℚ) ^ (q - 2) = 2 ^ q / 4 := by
    rw [zpow_sub₀ (by norm_num)]; norm_num
  have hlo : (((if lh = true then 4 * m - 1 else 4 * m - 2 : Nat)) : ℚ) * 2 ^ (q - 2) =
      ((m : ℚ) - reachBelow lh) * 2 ^ q := by
    rw [hquarter]
    cases lh <;> simp only [reachBelow, Bool.false_eq_true, if_false, if_true] <;>
      rw [Nat.cast_sub (by omega)] <;> push_cast <;> ring
  have hhi : ((4 * m + 2 : Nat) : ℚ) * 2 ^ (q - 2) = ((m : ℚ) + 1 / 2) * 2 ^ q := by
    rw [hquarter]; push_cast; ring
  rw [compareScaled_eq, compareScaled_eq, hlo, hhi]
  simp only [Bool.and_eq_true, Bool.or_eq_true, beq_iff_eq, compare_gt_iff_gt, compare_eq_iff_eq,
    compare_lt_iff_lt, Nearest]
  exact and_congr (or_congr mul_two_zpow_lt_iff (and_congr_right fun _ => eq_mul_two_zpow_iff))
    (or_congr lt_mul_two_zpow_iff (and_congr_right fun _ => eq_mul_two_zpow_iff))

/-! ## The decimal exponent -/

/-- A power of ten a hundredth below the estimate `30103 / 100000` per binary digit stays
below the power of two: `10^3 ≤ 2^10` bounds the tens above zero, `2^93 ≤ 10^28` the twos
below it. -/
theorem ten_zpow_le_two_zpow {a b : Int} (hab : 100000 * b ≤ 30103 * a) (hlo : -1100 ≤ a)
    (hhi : a ≤ 1100) : (10 : ℚ) ^ (b - 2) ≤ 2 ^ a := by
  rcases le_or_gt 0 a with ha | ha
  · rcases le_or_gt (b - 2) 0 with hb | hb
    · calc (10 : ℚ) ^ (b - 2) ≤ 1 := zpow_le_one_of_nonpos₀ (by norm_num) hb
        _ ≤ 2 ^ a := one_le_zpow₀ (by norm_num) ha
    · obtain ⟨B, hB⟩ : ∃ B : Nat, b - 2 = B := ⟨(b - 2).toNat, by omega⟩
      obtain ⟨A, hA⟩ : ∃ A : Nat, a = A := ⟨a.toNat, by omega⟩
      rw [hB, hA, zpow_natCast, zpow_natCast]
      have h10 : 10 * B ≤ 3 * A := by omega
      have key : (10 ^ B) ^ 3 ≤ (2 ^ A) ^ 3 := by
        calc (10 ^ B) ^ 3 = 1000 ^ B := by rw [← pow_mul, mul_comm, pow_mul]; norm_num
          _ ≤ 1024 ^ B := Nat.pow_le_pow_left (by norm_num) B
          _ = 2 ^ (10 * B) := by rw [pow_mul]; norm_num
          _ ≤ 2 ^ (3 * A) := Nat.pow_le_pow_right (by norm_num) h10
          _ = (2 ^ A) ^ 3 := by rw [← pow_mul, mul_comm]
      exact_mod_cast (Nat.pow_le_pow_iff_left (by norm_num)).1 key
  · obtain ⟨A, hA⟩ : ∃ A : Nat, a = -A := ⟨(-a).toNat, by omega⟩
    obtain ⟨C, hC⟩ : ∃ C : Nat, b - 2 = -C := ⟨(2 - b).toNat, by omega⟩
    rw [hA, hC, zpow_neg, zpow_neg, zpow_natCast, zpow_natCast,
      inv_le_inv₀ (by positivity) (by positivity)]
    have h28 : 28 * A ≤ 93 * C := by omega
    have key : (2 ^ A) ^ 93 ≤ (10 ^ C) ^ 93 := by
      calc (2 ^ A) ^ 93 = (2 ^ 93) ^ A := by rw [← pow_mul, ← pow_mul, mul_comm]
        _ ≤ (10 ^ 28) ^ A := Nat.pow_le_pow_left (by norm_num) A
        _ = 10 ^ (28 * A) := by rw [← pow_mul]
        _ ≤ 10 ^ (93 * C) := Nat.pow_le_pow_right (by norm_num) h28
        _ = (10 ^ C) ^ 93 := by rw [← pow_mul, mul_comm]
    exact_mod_cast (Nat.pow_le_pow_iff_left (by norm_num)).1 key

/-- One downward correction of the decimal exponent estimate: one lower while `10^e` is above
`m · 2^q`. -/
def stepDown (m : Nat) (q e : Int) : Int := if compareScaled 1 e m q == .gt then e - 1 else e

/-- One upward correction of the decimal exponent estimate: one higher while `10^(e+1)` is not
above `m · 2^q`. -/
def stepUp (m : Nat) (q e : Int) : Int := if compareScaled 1 (e + 1) m q == .gt then e else e + 1

/-- `decimalExponent` is its estimate from the leading bit, corrected twice down, then twice up. -/
theorem decimalExponent_eq (m : Nat) (q : Int) :
    decimalExponent m q =
      stepUp m q (stepUp m q (stepDown m q (stepDown m q
        (Int.fdiv (((m.log2 : Int) + q) * 30103) 100000)))) := rfl

theorem stepDown_cases (m : Nat) (q e : Int) :
    stepDown m q e = e - 1 ∨ (stepDown m q e = e ∧ (10 : ℚ) ^ e ≤ m * 2 ^ q) := by
  unfold stepDown
  split_ifs with hc
  · exact .inl rfl
  · refine .inr ⟨rfl, ?_⟩
    rw [compareScaled_eq] at hc
    simpa [compare_gt_iff_gt] using hc

theorem stepUp_cases (m : Nat) (q e : Int) :
    stepUp m q e = e ∨ (stepUp m q e = e + 1 ∧ (10 : ℚ) ^ (e + 1) ≤ m * 2 ^ q) := by
  unfold stepUp
  split_ifs with hc
  · exact .inl rfl
  · refine .inr ⟨rfl, ?_⟩
    rw [compareScaled_eq] at hc
    simpa [compare_gt_iff_gt] using hc

/-- `decimalExponent` finds a power of ten at most the value, within the range of doubles. -/
theorem decimalExponent_spec {m : Nat} {q : Int} (hm : 0 < m) (hm53 : m < 2 ^ 53)
    (hq : -1074 ≤ q ∧ q ≤ 971) :
    (10 : ℚ) ^ decimalExponent m q ≤ m * 2 ^ q ∧
      -330 ≤ decimalExponent m q ∧ decimalExponent m q ≤ 310 := by
  have hlog : m.log2 ≤ 52 := by
    have := (Nat.log2_lt hm.ne').2 hm53
    omega
  have hlead : (2 : ℚ) ^ ((m.log2 : Int) + q) ≤ m * 2 ^ q := by
    rw [zpow_add₀ (by norm_num), zpow_natCast]
    exact mul_le_mul_of_nonneg_right (by exact_mod_cast Nat.log2_self_le hm.ne') (by positivity)
  have hmono : ∀ {e e' : Int}, e' ≤ e → (10 : ℚ) ^ e ≤ m * 2 ^ q → (10 : ℚ) ^ e' ≤ m * 2 ^ q :=
    fun h he => (zpow_le_zpow_right₀ (by norm_num) h).trans he
  rw [decimalExponent_eq]
  set est := Int.fdiv (((m.log2 : Int) + q) * 30103) 100000 with hest
  have hest' : 100000 * est ≤ 30103 * ((m.log2 : Int) + q) ∧
      30103 * ((m.log2 : Int) + q) < 100000 * est + 100000 := by
    rw [hest, Int.fdiv_eq_ediv]
    simp only [Nat.ofNat_nonneg, true_or, if_true, sub_zero]
    omega
  have hP0 : (10 : ℚ) ^ (est - 2) ≤ m * 2 ^ q :=
    (ten_zpow_le_two_zpow hest'.1 (by omega) (by omega)).trans hlead
  -- two corrections down, two up: each moves by one at most and keeps a power of ten below
  set d1 := stepDown m q est with hd1
  set d2 := stepDown m q d1 with hd2
  set u1 := stepUp m q d2 with hu1
  set u2 := stepUp m q u1 with hu2
  have c1 := stepDown_cases m q est
  have c2 := stepDown_cases m q d1
  have c3 := stepUp_cases m q d2
  have c4 := stepUp_cases m q u1
  rw [← hd1] at c1
  rw [← hd2] at c2
  rw [← hu1] at c3
  rw [← hu2] at c4
  have hP1 : (10 : ℚ) ^ (d1 - 1) ≤ m * 2 ^ q := by
    rcases c1 with h | ⟨h, hle⟩
    · rw [h, sub_sub]; exact hP0
    · rw [h]; exact hmono (by omega) hle
  have hP2 : (10 : ℚ) ^ d2 ≤ m * 2 ^ q := by
    rcases c2 with h | ⟨h, hle⟩
    · rw [h]; exact hP1
    · rw [h]; exact hle
  have hP3 : (10 : ℚ) ^ u1 ≤ m * 2 ^ q := by
    rcases c3 with h | ⟨h, hle⟩
    · rw [h]; exact hP2
    · rw [h]; exact hle
  have hP4 : (10 : ℚ) ^ u2 ≤ m * 2 ^ q := by
    rcases c4 with h | ⟨h, hle⟩
    · rw [h]; exact hP3
    · rw [h]; exact hle
  refine ⟨hP4, ?_⟩
  have b1 : est - 1 ≤ d1 ∧ d1 ≤ est := by rcases c1 with h | ⟨h, -⟩ <;> omega
  have b2 : d1 - 1 ≤ d2 ∧ d2 ≤ d1 := by rcases c2 with h | ⟨h, -⟩ <;> omega
  have b3 : d2 ≤ u1 ∧ u1 ≤ d2 + 1 := by rcases c3 with h | ⟨h, -⟩ <;> omega
  have b4 : u1 ≤ u2 ∧ u2 ≤ u1 + 1 := by rcases c4 with h | ⟨h, -⟩ <;> omega
  omega

/-! ## The search -/

theorem findSome?_getD_of {f : Nat → Option (Nat × Int)} {Q : Nat × Int → Prop} {n : Nat}
    (hf : ∀ i < n + 1, ∀ p, f i = some p → Q p) (hn : f n ≠ none) (fallback : Nat × Int) :
    Q (((List.range (n + 1)).findSome? f).getD fallback) := by
  cases h : (List.range (n + 1)).findSome? f with
  | none =>
    exact absurd (List.findSome?_eq_none_iff.1 h n (List.mem_range.2 (by omega))) hn
  | some p =>
    obtain ⟨i, hi, hp⟩ := List.exists_of_findSome?_eq_some h
    exact hf i (List.mem_range.1 hi) p hp


theorem Nearest.pos {m : Nat} {q k : Int} {lh : Bool} {c : Nat} (hm : 0 < m)
    (h : Nearest m q lh ((c : ℚ) * 10 ^ k)) : 0 < c := by
  obtain ⟨hlo, -⟩ := h
  have hreach : (0 : ℚ) < m - reachBelow lh := by
    have : (1 : ℚ) ≤ m := by exact_mod_cast hm
    unfold reachBelow; split_ifs <;> linarith
  rcases Nat.eq_zero_or_pos c with rfl | hc
  · simp only [Nat.cast_zero, zero_mul] at hlo
    rcases hlo with h | ⟨-, h⟩ <;> linarith
  · exact hc

/-- The grid point below a value, or the next one up, lies in its rounding interval when the
grid is finer than the interval is wide. -/
theorem nearest_floor_or_succ {m c : Nat} {q k : Int} {lh : Bool}
    (hstep : (10 : ℚ) ^ k * 2 ^ (-q) < 1 / 2 + reachBelow lh)
    (hc : (c : ℚ) * 10 ^ k ≤ m * 2 ^ q) (hc1 : (m : ℚ) * 2 ^ q < (c + 1) * 10 ^ k) :
    Nearest m q lh ((c : ℚ) * 10 ^ k) ∨ Nearest m q lh (((c + 1 : Nat) : ℚ) * 10 ^ k) := by
  have hreach : 0 < reachBelow lh := by unfold reachBelow; split_ifs <;> norm_num
  have hs : (0 : ℚ) < 2 ^ (-q) := zpow_pos (by norm_num) _
  have hscale : (m : ℚ) * 2 ^ q * 2 ^ (-q) = m := by
    rw [mul_assoc, ← zpow_add₀ (by norm_num)]; simp
  -- on the scale of `2^q` the grid step is `G` and the value is `m`
  set G : ℚ := 10 ^ k * 2 ^ (-q) with hG
  have h1 : (c : ℚ) * G ≤ m := by
    have := mul_le_mul_of_nonneg_right hc hs.le
    rw [hscale] at this; rw [hG]; linarith [this]
  have h2 : (m : ℚ) < (c + 1) * G := by
    have := mul_lt_mul_of_pos_right hc1 hs
    rw [hscale] at this; rw [hG]; linarith [this]
  have hc' : (c : ℚ) * 10 ^ k * 2 ^ (-q) = c * G := by rw [hG]; ring
  have hc1' : ((c + 1 : Nat) : ℚ) * 10 ^ k * 2 ^ (-q) = (c + 1) * G := by rw [hG]; push_cast; ring
  by_cases hlow : (m : ℚ) - reachBelow lh < c * G
  · left
    exact ⟨.inl (by rw [hc']; exact hlow), .inl (by rw [hc']; linarith)⟩
  · right
    exact ⟨.inl (by rw [hc1']; linarith), .inl (by rw [hc1']; linarith)⟩

/-- The candidate `shortestOf` starts from at exponent `k`: the value's grid point below it. -/
theorem scaled_floor_bounds (m : Nat) (q k : Int) :
    ((m * Nat.pow 2 q.toNat * Nat.pow 10 (-k).toNat /
        (Nat.pow 2 (-q).toNat * Nat.pow 10 k.toNat) : Nat) : ℚ) * 10 ^ k ≤ m * 2 ^ q ∧
      (m : ℚ) * 2 ^ q < ((m * Nat.pow 2 q.toNat * Nat.pow 10 (-k).toNat /
        (Nat.pow 2 (-q).toNat * Nat.pow 10 k.toNat) : Nat) + 1) * 10 ^ k := by
  set a := m * Nat.pow 2 q.toNat * Nat.pow 10 (-k).toNat
  set b := Nat.pow 2 (-q).toNat * Nat.pow 10 k.toNat
  have hb : 0 < b := Nat.mul_pos (by simp [Nat.pow_eq]) (by simp [Nat.pow_eq])
  have hab : (a : ℚ) / b * 10 ^ k = m * 2 ^ q := by
    have h2 := zpow_toNat_div (2 : ℚ) q
    have h10 := zpow_toNat_div (10 : ℚ) k
    simp only [a, b, Nat.pow_eq]
    push_cast
    rw [← h2, ← h10]
    field_simp
  obtain ⟨hlo, hhi⟩ := quotient_bounds (a / b) (Nat.mod_lt a hb)
  rw [natCast_div_add_mod hb] at hlo hhi
  have h10 : (0 : ℚ) < 10 ^ k := zpow_pos (by norm_num) _
  constructor
  · rw [← hab]; exact mul_le_mul_of_nonneg_right hlo h10.le
  · rw [← hab]; exact mul_lt_mul_of_pos_right hhi h10

/-- Removing trailing zeros keeps the value, a positive digit count and raises the exponent by
at most the fuel. -/
theorem stripZeros_go_spec (fuel : Nat) : ∀ (d : Nat) (k : Int), 0 < d →
    0 < (stripZeros.go fuel d k).1 ∧
      ((stripZeros.go fuel d k).1 : ℚ) * 10 ^ (stripZeros.go fuel d k).2 = d * 10 ^ k ∧
      k ≤ (stripZeros.go fuel d k).2 ∧ (stripZeros.go fuel d k).2 ≤ k + fuel := by
  induction fuel with
  | zero => intro d k hd; simp [stripZeros.go, hd]
  | succ fuel ih =>
    intro d k hd
    unfold stripZeros.go
    split_ifs with hz
    · -- a trailing zero: one digit fewer, one power of ten more
      have hz' : d % 10 = 0 := by
        simp only [Bool.and_eq_true, decide_eq_true_eq, beq_iff_eq] at hz
        exact hz.2
      obtain ⟨h1, h2, h3, h4⟩ := ih (d / 10) (k + 1) (by omega)
      refine ⟨h1, ?_, by omega, by omega⟩
      rw [h2, zpow_add_one₀ (by norm_num)]
      have : (d : ℚ) = (d / 10 : Nat) * 10 := by exact_mod_cast (Nat.div_mul_cancel (Nat.dvd_of_mod_eq_zero hz')).symm
      rw [this]; ring
    · exact ⟨hd, rfl, le_refl _, by omega⟩

/-- What `shortestOf` returns: positive digits `d` and an exponent `k` in the range of
`ofDecimal`, with `d · 10^k` in the rounding interval, and `k` at most sixteen below the
decimal exponent of the value. -/
def ShortDigits (m : Nat) (q : Int) (lh : Bool) (p : Nat × Int) : Prop :=
  0 < p.1 ∧ Nearest m q lh ((p.1 : ℚ) * 10 ^ p.2) ∧ -400 ≤ p.2 ∧ p.2 ≤ 400 ∧
    decimalExponent m q - 16 ≤ p.2

theorem shortestOf_spec {m : Nat} {q : Int} {lh : Bool} (hm : 0 < m) (hm53 : m < 2 ^ 53)
    (hlh : lh = true → m = 2 ^ 52) (hq : -1074 ≤ q ∧ q ≤ 971) :
    ShortDigits m q lh (shortestOf m q lh) := by
  obtain ⟨hP, hlo, hhi⟩ := decimalExponent_spec hm hm53 hq
  -- a candidate of the search: in the interval, at an exponent at most 16 below the estimate
  let Cand : Nat × Int → Prop := fun p => 0 < p.1 ∧ Nearest m q lh ((p.1 : ℚ) * 10 ^ p.2) ∧
    decimalExponent m q - 16 ≤ p.2 ∧ p.2 ≤ decimalExponent m q
  have hstrip : ∀ p, Cand p → ShortDigits m q lh (stripZeros p.1 p.2) := by
    rintro ⟨d, k⟩ ⟨hd, hN, hk1, hk2⟩
    obtain ⟨h1, h2, h3, h4⟩ := stripZeros_go_spec 20 d k hd
    show ShortDigits m q lh (stripZeros.go 20 d k)
    refine ⟨h1, ?_, by omega, by omega, by omega⟩
    rw [h2]
    exact hN
  unfold shortestOf
  dsimp only
  refine hstrip _ ?_
  refine findSome?_getD_of (n := 16) ?_ ?_ _
  · intro i hi p hp
    have hk : decimalExponent m q - 16 ≤ decimalExponent m q - ↑(i + 1) + 1 ∧
        decimalExponent m q - ↑(i + 1) + 1 ≤ decimalExponent m q := by omega
    split at hp
    · rename_i hc hc1
      have hN := (inside_iff hm q lh _ _).1 hc
      have hN1 := (inside_iff hm q lh _ _).1 hc1
      split at hp
      · cases hp; exact ⟨Nearest.pos hm hN, hN, hk⟩
      · cases hp; exact ⟨Nearest.pos hm hN1, hN1, hk⟩
      · cases hp
        split
        · exact ⟨Nearest.pos hm hN, hN, hk⟩
        · exact ⟨Nearest.pos hm hN1, hN1, hk⟩
    · rename_i hc _
      have hN := (inside_iff hm q lh _ _).1 hc
      cases hp; exact ⟨Nearest.pos hm hN, hN, hk⟩
    · rename_i _ hc1
      have hN1 := (inside_iff hm q lh _ _).1 hc1
      cases hp; exact ⟨Nearest.pos hm hN1, hN1, hk⟩
    · cases hp
  · -- at 17 digits the grid is finer than the interval, so the search hits there
    intro hnone
    split at hnone
    · split at hnone <;> cases hnone
    · cases hnone
    · cases hnone
    · rename_i hc hc1
      have hfl := scaled_floor_bounds m q (decimalExponent m q - ↑(16 + 1) + 1)
      have hk : decimalExponent m q - ↑(16 + 1) + 1 = decimalExponent m q - 16 := by push_cast; ring
      have hmq : (10 : ℚ) ^ decimalExponent m q * 2 ^ (-q) ≤ m := by
        have := mul_le_mul_of_nonneg_right hP (zpow_pos (by norm_num : (0 : ℚ) < 2) (-q)).le
        rwa [mul_assoc (m : ℚ), ← zpow_add₀ (by norm_num), add_neg_cancel, zpow_zero,
          mul_one] at this
      have hm16 : (m : ℚ) / 10 ^ 16 < 1 / 2 + reachBelow lh := by
        cases lh with
        | false =>
          have : (m : ℚ) < 2 ^ 53 := by exact_mod_cast hm53
          simp only [reachBelow, Bool.false_eq_true, if_false]
          rw [div_lt_iff₀ (by norm_num)]
          linarith
        | true =>
          simp only [reachBelow, if_true, hlh rfl]
          norm_num
      have hstep : (10 : ℚ) ^ (decimalExponent m q - ↑(16 + 1) + 1) * 2 ^ (-q) <
          1 / 2 + reachBelow lh := by
        rw [hk, zpow_sub₀ (by norm_num)]
        calc (10 : ℚ) ^ decimalExponent m q / 10 ^ (16 : Int) * 2 ^ (-q)
            = (10 : ℚ) ^ decimalExponent m q * 2 ^ (-q) / 10 ^ 16 := by norm_num; ring
          _ ≤ m / 10 ^ 16 := by gcongr
          _ < 1 / 2 + reachBelow lh := hm16
      rcases nearest_floor_or_succ hstep hfl.1 hfl.2 with h | h
      · exact Bool.false_ne_true (hc.symm.trans ((inside_iff hm q lh _ _).2 h))
      · exact Bool.false_ne_true (hc1.symm.trans ((inside_iff hm q lh _ _).2 h))

theorem shortest_eq (x : Binary64) :
    x.shortest = (toString (shortestOf x.decode.1 x.decode.2 x.lowerHalf).1,
      (shortestOf x.decode.1 x.decode.2 x.lowerHalf).2) := by
  unfold shortest lowerHalf
  rcases x.decode with ⟨m, q⟩
  dsimp only

/-- The shortest digits of a finite non-zero value, read as a decimal, give the value back. -/
theorem ofDecimal_shortestOf {x : Binary64} (hfin : x.isFinite = true) (hzero : x.isZero = false) :
    ofDecimal x.negative (shortestOf x.decode.1 x.decode.2 x.lowerHalf).1
      (shortestOf x.decode.1 x.decode.2 x.lowerHalf).2 = x := by
  obtain ⟨hm, hm53, hlh, hq1, hq2⟩ := decode_bounds hfin hzero
  obtain ⟨hd, hN, -⟩ := shortestOf_spec hm hm53 hlh ⟨hq1, hq2⟩
  exact ofDecimal_of_nearest hfin hzero hd hN

end Binary64
end QueryShield
