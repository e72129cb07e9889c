import Mathlib
import QueryShield.Number.Binary64

/-!
# Rounding a ratio to a double

`Binary64.ofRatio` rounds a non-negative rational `num / den` to the nearest double, a tie
going to the even mantissa.  This module proves it from the side of the result: a ratio that
lies in the rounding interval of a finite non-zero double `x` is rounded to `x`
(`ofRatio_of_nearest`), and so is a decimal `d · 10^k` there (`ofDecimal_of_nearest`).

The interval (`Nearest`) is the one the shortest-digits search tests: with `x = m · 2^q`, it
reaches half a unit of `2^q` above `x` and below it, or a quarter below when the next smaller
double is half as far (`lowerHalf`), and it holds its ends exactly when `m` is even.

The rounding picks an exponent from the leading bits of `num` and `den` and corrects it by
one (`normalExponent_spec`, `normalExponent_eq`), divides (`scaledDiv_spec`), rounds the
quotient half to even (`round_half_even`) and packs the fields.  The proof follows the cases
of `x`: subnormal, normal, and a power of two that a ratio just below reaches by a carry.
-/

namespace QueryShield
namespace Binary64

/-! ## Powers and quotients in ℚ -/

theorem zpow_toNat_div (b : ℚ) (e : Int) : b ^ e.toNat / b ^ (-e).toNat = b ^ e := by
  rcases le_total 0 e with h | h
  · rw [Int.toNat_of_nonpos (show -e ≤ 0 by omega), pow_zero, div_one, ← zpow_natCast,
      Int.toNat_of_nonneg h]
  · rw [Int.toNat_of_nonpos h, pow_zero, one_div, ← zpow_natCast, Int.toNat_of_nonneg (by omega),
      ← zpow_neg, neg_neg]

theorem natCast_div_add_mod {n d : Nat} (hd : 0 < d) :
    ((n / d : Nat) : ℚ) + ((n % d : Nat) : ℚ) / d = (n : ℚ) / d := by
  have hdq : (d : ℚ) ≠ 0 := by exact_mod_cast hd.ne'
  have hsplit : (n : ℚ) = d * (n / d : Nat) + (n % d : Nat) := by
    exact_mod_cast (Nat.div_add_mod n d).symm
  rw [hsplit]
  field_simp

/-- `scaledDiv num den q` is `num / den · 2^(-q)` as a quotient and a remainder. -/
theorem scaledDiv_spec {num den : Nat} (hden : 0 < den) (q : Int) {mm rr dd : Nat}
    (h : scaledDiv num den q = (mm, rr, dd)) :
    rr < dd ∧ (num : ℚ) / den * 2 ^ (-q) = mm + rr / dd := by
  simp only [scaledDiv, Nat.pow_eq, Prod.mk.injEq] at h
  obtain ⟨rfl, rfl, rfl⟩ := h
  have hd : 0 < den * 2 ^ q.toNat := Nat.mul_pos hden (Nat.two_pow_pos _)
  refine ⟨Nat.mod_lt _ hd, ?_⟩
  have h2 : (2 : ℚ) ^ (-q).toNat / 2 ^ q.toNat = 2 ^ (-q) := by
    simpa using zpow_toNat_div (2 : ℚ) (-q)
  rw [natCast_div_add_mod hd]
  push_cast
  rw [mul_div_mul_comm, h2]

/-- A quotient with its remainder lies between the quotient and the next integer. -/
theorem quotient_bounds (mm : Nat) {rr dd : Nat} (hrd : rr < dd) :
    (mm : ℚ) ≤ mm + rr / dd ∧ (mm : ℚ) + rr / dd < mm + 1 := by
  have hdd : (0 : ℚ) < dd := by exact_mod_cast (by omega : 0 < dd)
  have hlt : (rr : ℚ) / dd < 1 := by rw [div_lt_one hdd]; exact_mod_cast hrd
  constructor
  · have : (0 : ℚ) ≤ rr / dd := by positivity
    linarith
  · linarith

/-- A positive number over its leading power of two lies in `[1, 2)`. -/
theorem leading_bit_bounds {n : Nat} (hn : 0 < n) :
    1 ≤ (n : ℚ) / 2 ^ n.log2 ∧ (n : ℚ) / 2 ^ n.log2 < 2 := by
  have hlo : (2 : ℚ) ^ n.log2 ≤ n := by exact_mod_cast Nat.log2_self_le hn.ne'
  have hhi : (n : ℚ) < 2 * 2 ^ n.log2 := by
    have := Nat.lt_log2_self (n := n)
    rw [pow_succ] at this
    exact_mod_cast (by omega : n < 2 * 2 ^ n.log2)
  constructor
  · rw [one_le_div (by positivity)]; exact hlo
  · rw [div_lt_iff₀ (by positivity)]; exact hhi

/-! ## The exponent of a ratio -/

/-- Of two exponents that scale a ratio into `[2^52, 2^53)` from below and from above, the
first is not larger: one step lower doubles the scaled ratio. -/
theorem le_of_scaled {y : ℚ} {e f : Int} (h1 : 2 ^ 52 ≤ y * 2 ^ (-f))
    (h2 : y * 2 ^ (-e) < 2 ^ 53) : f ≤ e := by
  by_contra hfe
  have hpow : (2 : ℚ) ≤ 2 ^ (f - e) := by
    simpa using zpow_le_zpow_right₀ (by norm_num : (1 : ℚ) ≤ 2) (by omega : (1 : Int) ≤ f - e)
  have hsplit : y * 2 ^ (-e) = y * 2 ^ (-f) * 2 ^ (f - e) := by
    rw [mul_assoc, ← zpow_add₀ (by norm_num)]
    ring_nf
  have hy : 0 ≤ y * 2 ^ (-f) := le_trans (by norm_num) h1
  nlinarith

/-- `normalExponent` scales a positive ratio into `[2^52, 2^53)`. -/
theorem normalExponent_spec {num den : Nat} (hnum : 0 < num) (hden : 0 < den) :
    2 ^ 52 ≤ (num : ℚ) / den * 2 ^ (-normalExponent num den) ∧
      (num : ℚ) / den * 2 ^ (-normalExponent num den) < 2 ^ 53 := by
  set q0 : Int := (num.log2 : Int) - den.log2 - 52 with hq0
  -- the estimate from the leading bits puts the scaled ratio strictly between `2^51` and `2^53`
  have hscale : (num : ℚ) / den * 2 ^ (-q0) =
      2 ^ 52 * ((num : ℚ) / 2 ^ num.log2) / ((den : ℚ) / 2 ^ den.log2) := by
    rw [show -q0 = 52 + (den.log2 : Int) - num.log2 by omega, zpow_sub₀ (by norm_num),
      zpow_add₀ (by norm_num)]
    simp only [zpow_natCast]
    field_simp
  obtain ⟨hn1, hn2⟩ := leading_bit_bounds hnum
  obtain ⟨hd1, hd2⟩ := leading_bit_bounds hden
  have hlo : 2 ^ 51 < (num : ℚ) / den * 2 ^ (-q0) := by
    rw [hscale, lt_div_iff₀ (by linarith)]
    nlinarith
  have hhi : (num : ℚ) / den * 2 ^ (-q0) < 2 ^ 53 := by
    rw [hscale, div_lt_iff₀ (by linarith)]
    nlinarith
  rcases hs : scaledDiv num den q0 with ⟨m0, r0, d0⟩
  obtain ⟨hr, heq⟩ := scaledDiv_spec hden q0 hs
  obtain ⟨hfloor, hceil⟩ := quotient_bounds m0 hr
  rw [← heq] at hfloor hceil
  unfold normalExponent
  simp only [hs, Nat.pow_eq, ← hq0]
  split_ifs with h1 h2
  · -- the quotient is never `2^53` or more
    exfalso
    have : (2 : ℚ) ^ 53 ≤ m0 := by exact_mod_cast h1
    linarith
  · -- below `2^52`: one exponent lower doubles it
    have hm0 : (m0 : ℚ) + 1 ≤ 2 ^ 52 := by exact_mod_cast h2
    have hdouble : (num : ℚ) / den * 2 ^ (-(q0 - 1)) = 2 * ((num : ℚ) / den * 2 ^ (-q0)) := by
      rw [show -(q0 - 1) = -q0 + 1 by ring, zpow_add_one₀ (by norm_num)]
      ring
    rw [hdouble]
    constructor <;> linarith
  · have hm0 : (2 : ℚ) ^ 52 ≤ m0 := by exact_mod_cast (Nat.le_of_not_lt h2)
    constructor <;> linarith

theorem normalExponent_eq {num den : Nat} (hnum : 0 < num) (hden : 0 < den) {e : Int}
    (h1 : 2 ^ 52 ≤ (num : ℚ) / den * 2 ^ (-e)) (h2 : (num : ℚ) / den * 2 ^ (-e) < 2 ^ 53) :
    normalExponent num den = e := by
  obtain ⟨s1, s2⟩ := normalExponent_spec hnum hden
  exact le_antisymm (le_of_scaled s1 h2) (le_of_scaled h1 s2)

theorem normalExponent_lt {num den : Nat} (hnum : 0 < num) (hden : 0 < den) {e : Int}
    (h : (num : ℚ) / den * 2 ^ (-e) < 2 ^ 52) : normalExponent num den < e := by
  obtain ⟨s1, -⟩ := normalExponent_spec hnum hden
  by_contra hle
  have hpow : (2 : ℚ) ^ (-normalExponent num den) ≤ 2 ^ (-e) :=
    zpow_le_zpow_right₀ (by norm_num) (by omega)
  have hy : (0 : ℚ) ≤ num / den := by positivity
  nlinarith [mul_le_mul_of_nonneg_left hpow hy]

/-! ## Rounding half to even -/

/-- A quotient `mm + rr / dd` within half a unit of `m`, on the edge only when `m` is even,
rounds half to even to `m`. -/
theorem round_half_even {mm rr dd m : Nat} (hrd : rr < dd) {t : ℚ} (ht : t = mm + rr / dd)
    (hlo : (m : ℚ) - 1 / 2 < t ∨ (m % 2 = 0 ∧ t = m - 1 / 2))
    (hhi : t < m + 1 / 2 ∨ (m % 2 = 0 ∧ t = m + 1 / 2)) :
    (if 2 * rr > dd || (2 * rr == dd && mm % 2 == 1) then mm + 1 else mm) = m := by
  have hdd : (0 : ℚ) < dd := by exact_mod_cast (by omega : 0 < dd)
  obtain ⟨hfloor, hceil⟩ := quotient_bounds mm hrd
  rw [← ht] at hfloor hceil
  have hlo' : (m : ℚ) - 1 / 2 ≤ t := by rcases hlo with h | ⟨-, h⟩ <;> linarith
  have hhi' : t ≤ m + 1 / 2 := by rcases hhi with h | ⟨-, h⟩ <;> linarith
  -- twice the remainder against the divisor is the fraction against one half
  have hfrac : (2 * rr : ℚ) - dd = (2 * (t - mm) - 1) * dd := by
    rw [ht]; field_simp; ring
  have htie : 2 * rr = dd → t = mm + 1 / 2 := by
    intro heq
    have heq' : (2 * rr : ℚ) = dd := by exact_mod_cast heq
    have : (2 * (t - mm) - 1) * dd = 0 := by rw [← hfrac, heq']; ring
    rcases mul_eq_zero.1 this with h | h <;> linarith
  -- so the quotient is `m` or `m - 1`
  have hle : mm ≤ m := by
    have : (mm : ℚ) < m + 1 := by linarith
    exact_mod_cast Nat.lt_succ_iff.1 (by exact_mod_cast this)
  have hge : m ≤ mm + 1 := by
    have : (m : ℚ) < mm + 2 := by linarith
    have : m < mm + 2 := by exact_mod_cast this
    omega
  rcases (by omega : mm = m ∨ mm + 1 = m) with rfl | hm
  · -- at or above `m`: the fraction is at most one half, and one half only for even `m`
    have hnot : ¬ 2 * rr > dd := by
      intro hgt
      have : (dd : ℚ) < 2 * rr := by exact_mod_cast hgt
      nlinarith
    by_cases heq : 2 * rr = dd
    · have heven : mm % 2 = 0 := by
        rcases hhi with h | ⟨he, -⟩
        · linarith [htie heq]
        · exact he
      simp [heq, heven]
    · simp [hnot, heq]
  · -- below `m`: the fraction is at least one half, and one half only for odd `m - 1`
    subst hm
    have hnot : ¬ 2 * rr < dd := by
      intro hlt
      have : (2 * rr : ℚ) < dd := by exact_mod_cast hlt
      push_cast at hlo'
      nlinarith
    by_cases hgt : 2 * rr > dd
    · simp [hgt]
    · have heq : 2 * rr = dd := by omega
      have hodd : mm % 2 = 1 := by
        rcases hlo with h | ⟨he, -⟩
        · push_cast at h
          linarith [htie heq]
        · omega
      simp [heq, hodd]

/-! ## Fields -/

/-- A value is made back from its sign, exponent field and fraction field. -/
theorem make_fields (x : Binary64) : make x.negative x.expField x.fraction = x := by
  obtain ⟨b⟩ := x
  have hb : b.toNat < 18446744073709551616 := b.toNat_lt
  simp only [make, negative, expField, fraction, Nat.pow_eq, Binary64.mk.injEq]
  apply UInt64.toNat_inj.1
  rw [UInt64.toNat_ofNat']
  norm_num
  split_ifs <;> omega

theorem fraction_lt (x : Binary64) : x.fraction < 2 ^ 52 := by
  simp only [fraction, Nat.pow_eq]
  exact Nat.mod_lt _ (Nat.two_pow_pos _)

theorem expField_lt {x : Binary64} (h : x.isFinite = true) : x.expField < 2047 := by
  have hlt : x.expField < 2048 := by simp only [expField]; omega
  simp only [isFinite, bne_iff_ne, ne_eq] at h
  omega

theorem decode_subnormal {x : Binary64} (h : x.expField = 0) :
    x.decode = (x.fraction, -1074) := by
  simp [decode, h]

theorem decode_normal {x : Binary64} (h : x.expField ≠ 0) :
    x.decode = (x.fraction + 2 ^ 52, (x.expField : Int) - 1075) := by
  simp [decode, h, Nat.pow_eq]

/-- Whether the next smaller value is half as far as the next larger one: the value is a
power of two above the smallest normal one. -/
def lowerHalf (x : Binary64) : Bool := x.fraction == 0 && x.expField > 1

/-- The mantissa and exponent of a finite non-zero value: a positive mantissa below `2^53`,
exactly `2^52` at a power of two whose lower neighbour is half as far, and an exponent from
the least subnormal one to the greatest normal one. -/
theorem decode_bounds {x : Binary64} (hfin : x.isFinite = true) (hzero : x.isZero = false) :
    0 < x.decode.1 ∧ x.decode.1 < 2 ^ 53 ∧ (x.lowerHalf = true → x.decode.1 = 2 ^ 52) ∧
      -1074 ≤ x.decode.2 ∧ x.decode.2 ≤ 971 := by
  have hexp := expField_lt hfin
  have hfrac := fraction_lt x
  by_cases hsub : x.expField = 0
  · have hf : x.fraction ≠ 0 := by
      simpa [isZero, hsub] using hzero
    rw [decode_subnormal hsub]
    refine ⟨by simpa using Nat.pos_of_ne_zero hf, by simp; omega, ?_, by simp, by simp⟩
    simp [lowerHalf, hsub]
  · rw [decode_normal hsub]
    refine ⟨by simp, by simp; omega, ?_, by simp; omega, by simp; omega⟩
    intro h
    simp only [lowerHalf, Bool.and_eq_true, beq_iff_eq, decide_eq_true_eq] at h
    simp [h.1]

/-! ## The rounding interval -/

/-- How far below `m` the values that round to `m · 2^q` reach, in units of `2^q`: half a
unit, or a quarter when the next smaller value is half as far. -/
def reachBelow (lowerHalf : Bool) : ℚ := if lowerHalf then 1 / 4 else 1 / 2

/-- `r` rounds to `m · 2^q`: scaled by `2^(-q)` it lies strictly within the reach of `m`
(half a unit above, `reachBelow` below), or on an end when `m` is even, a tie going to the
even mantissa. -/
def Nearest (m : Nat) (q : Int) (lowerHalf : Bool) (r : ℚ) : Prop :=
  ((m : ℚ) - reachBelow lowerHalf < r * 2 ^ (-q) ∨
      (m % 2 = 0 ∧ r * 2 ^ (-q) = m - reachBelow lowerHalf)) ∧
    (r * 2 ^ (-q) < m + 1 / 2 ∨ (m % 2 = 0 ∧ r * 2 ^ (-q) = m + 1 / 2))

/-- The lower reach of `Nearest`, widened to half a unit. -/
theorem half_below_of_reach {m : Nat} {lh : Bool} {t : ℚ}
    (h : (m : ℚ) - reachBelow lh < t ∨ (m % 2 = 0 ∧ t = m - reachBelow lh)) :
    (m : ℚ) - 1 / 2 < t ∨ (m % 2 = 0 ∧ t = m - 1 / 2) := by
  cases lh with
  | false => simpa [reachBelow] using h
  | true =>
    left
    rcases h with h | ⟨-, h⟩ <;> simp only [reachBelow, if_true] at h <;> linarith

/-! ## The rounding lands on the value -/

/-- A ratio within half a unit of `m` at the exponent the rounding picks is rounded to `m`
there; nothing carries, since `m < 2^53`. -/
theorem ofRatio_of_near (neg : Bool) {num den : Nat} (hnum : 0 < num) (hden : 0 < den)
    {q : Int} (hq : max (normalExponent num den) (-1074) = q) (hq971 : q ≤ 971) {m : Nat}
    (hm : m < 2 ^ 53)
    (hlo : (m : ℚ) - 1 / 2 < (num : ℚ) / den * 2 ^ (-q) ∨
      (m % 2 = 0 ∧ (num : ℚ) / den * 2 ^ (-q) = m - 1 / 2))
    (hhi : (num : ℚ) / den * 2 ^ (-q) < m + 1 / 2 ∨
      (m % 2 = 0 ∧ (num : ℚ) / den * 2 ^ (-q) = m + 1 / 2)) :
    ofRatio neg num den =
      if m < 2 ^ 52 then make neg 0 m else make neg (q + 1075).toNat (m - 2 ^ 52) := by
  rcases hs : scaledDiv num den q with ⟨mm, rr, dd⟩
  obtain ⟨hr, heq⟩ := scaledDiv_spec hden q hs
  have hround := round_half_even hr heq hlo hhi
  have hcarry : (m == 2 ^ 53) = false := by simp; omega
  simp only [ofRatio, hden.ne', hnum.ne', if_false, hq, hs, hround, Nat.pow_eq, hcarry,
    Bool.false_eq_true, gt_iff_lt, not_lt.2 hq971]

/-- A ratio just below a power of two `2^52 · 2^q` is rounded up at the exponent below and
carries into `2^52 · 2^q`. -/
theorem ofRatio_of_carry (neg : Bool) {num den : Nat} (hnum : 0 < num) (hden : 0 < den)
    {q : Int} (hq : max (normalExponent num den) (-1074) = q - 1) (hq971 : q ≤ 971)
    (hlo : 2 ^ 53 - 1 / 2 ≤ (num : ℚ) / den * 2 ^ (-(q - 1)))
    (hhi : (num : ℚ) / den * 2 ^ (-(q - 1)) < 2 ^ 53) :
    ofRatio neg num den = make neg (q + 1075).toNat 0 := by
  rcases hs : scaledDiv num den (q - 1) with ⟨mm, rr, dd⟩
  obtain ⟨hr, heq⟩ := scaledDiv_spec hden (q - 1) hs
  have hround := round_half_even (m := 2 ^ 53) hr heq
    (by rcases hlo.lt_or_eq with h | h
        · left; push_cast; linarith
        · right; push_cast; exact ⟨by norm_num, by linarith⟩)
    (by left; push_cast; linarith)
  simp only [ofRatio, hden.ne', hnum.ne', if_false, hq, hs, hround, Nat.pow_eq]
  simp only [Nat.reducePow, beq_self_eq_true, if_true, sub_add_cancel, gt_iff_lt,
    not_lt.2 hq971, if_false, lt_self_iff_false, Nat.sub_self]

/-- Every ratio in the rounding interval of a finite non-zero value is rounded to it. -/
theorem ofRatio_of_nearest {x : Binary64} (hfin : x.isFinite = true) (hzero : x.isZero = false)
    {num den : Nat} (hden : 0 < den)
    (h : Nearest x.decode.1 x.decode.2 x.lowerHalf ((num : ℚ) / den)) :
    ofRatio x.negative num den = x := by
  have hexp := expField_lt hfin
  have hfrac := fraction_lt x
  set m := x.decode.1 with hm_def
  set q := x.decode.2 with hq_def
  set y : ℚ := (num : ℚ) / den with hy
  obtain ⟨hlo, hhi⟩ := h
  have hm0 : 0 < m := (decode_bounds hfin hzero).1
  have hnum : 0 < num := by
    have hpos : 0 < y * 2 ^ (-q) := by
      have : (0 : ℚ) < m - reachBelow x.lowerHalf := by
        have : (1 : ℚ) ≤ m := by exact_mod_cast hm0
        unfold reachBelow; split_ifs <;> linarith
      rcases hlo with h | ⟨-, h⟩ <;> linarith
    have : 0 < y := pos_of_mul_pos_left hpos (zpow_pos (by norm_num) _).le
    rw [hy] at this
    by_contra h0
    simp [Nat.le_zero.1 (Nat.le_of_not_lt h0)] at this
  have hhalf := half_below_of_reach hlo
  conv_rhs => rw [← make_fields x]
  by_cases hsub : x.expField = 0
  · -- a subnormal value: the rounding stays at the least exponent
    have hm : m = x.fraction := by simp [hm_def, decode_subnormal hsub]
    have hq : q = -1074 := by simp [hq_def, decode_subnormal hsub]
    have hq' : max (normalExponent num den) (-1074) = q := by
      rw [hq]
      refine max_eq_right (normalExponent_lt hnum hden ?_).le
      rw [← hq]
      have : (m : ℚ) + 1 / 2 < 2 ^ 52 := by
        have : m + 1 ≤ 2 ^ 52 := by omega
        have : (m : ℚ) + 1 ≤ 2 ^ 52 := by exact_mod_cast this
        linarith
      rcases hhi with h | ⟨-, h⟩ <;> linarith
    rw [ofRatio_of_near x.negative hnum hden hq' (by omega) (by omega) hhalf hhi,
      if_pos (by omega), hm, hsub]
  · have hm : m = x.fraction + 2 ^ 52 := by simp [hm_def, decode_normal hsub]
    have hq : q = (x.expField : Int) - 1075 := by simp [hq_def, decode_normal hsub]
    have hq971 : q ≤ 971 := by omega
    by_cases hbelow : y * 2 ^ (-q) < 2 ^ 52
    · -- just below `2^52 · 2^q`: the value is a power of two
      have hf0 : x.fraction = 0 := by
        have : (m : ℚ) < 2 ^ 52 + 1 := by
          have : (m : ℚ) - 1 / 2 ≤ y * 2 ^ (-q) := by
            rcases hhalf with h | ⟨-, h⟩ <;> linarith
          linarith
        have : m < 2 ^ 52 + 1 := by exact_mod_cast this
        omega
      by_cases hone : x.expField = 1
      · -- the least normal exponent: there is no lower exponent to round at
        have hq' : max (normalExponent num den) (-1074) = q := by
          have := normalExponent_lt hnum hden hbelow
          rw [max_eq_right (by omega)]
          omega
        rw [ofRatio_of_near x.negative hnum hden hq' hq971 (by omega) hhalf
          (.inl (by push_cast [hm, hf0]; linarith)), if_neg (by omega), hm, hf0, hone]
        congr 1
        omega
      · -- the next smaller value is half as far: round one exponent lower and carry
        have hlh : x.lowerHalf = true := by simp [lowerHalf, hf0]; omega
        have hdouble : y * 2 ^ (-(q - 1)) = 2 * (y * 2 ^ (-q)) := by
          rw [show -(q - 1) = -q + 1 by ring, zpow_add_one₀ (by norm_num)]
          ring
        have hlo' : 2 ^ 53 - 1 / 2 ≤ y * 2 ^ (-(q - 1)) := by
          rw [hdouble]
          rw [hlh] at hlo
          simp only [reachBelow, if_true, hm, hf0] at hlo
          push_cast at hlo
          rcases hlo with h | ⟨-, h⟩ <;> linarith
        have hhi' : y * 2 ^ (-(q - 1)) < 2 ^ 53 := by rw [hdouble]; linarith
        have hq' : max (normalExponent num den) (-1074) = q - 1 := by
          rw [normalExponent_eq hnum hden (by linarith) hhi']
          omega
        rw [ofRatio_of_carry x.negative hnum hden hq' hq971 hlo' hhi', hf0]
        congr 1
        omega
    · -- at or above `2^52 · 2^q`: the rounding happens at exponent `q`
      have hupper : y * 2 ^ (-q) < 2 ^ 53 := by
        have : (m : ℚ) + 1 / 2 < 2 ^ 53 := by
          have : m + 1 ≤ 2 ^ 53 := by omega
          have : (m : ℚ) + 1 ≤ 2 ^ 53 := by exact_mod_cast this
          linarith
        rcases hhi with h | ⟨-, h⟩ <;> linarith
      have hq' : max (normalExponent num den) (-1074) = q := by
        rw [normalExponent_eq hnum hden (not_lt.1 hbelow) hupper]
        omega
      rw [ofRatio_of_near x.negative hnum hden hq' hq971 (by omega) hhalf hhi, if_neg (by omega),
        hm, Nat.add_sub_cancel]
      congr 1
      omega

/-! ## Decimals -/

/-- Three binary digits are fewer than one decimal digit. -/
theorem two_pow_lt_ten_pow {n : Nat} (hn : n ≠ 0) : (2 : ℚ) ^ (3 * n) < 10 ^ n := by
  rw [pow_mul]
  exact pow_lt_pow_left₀ (by norm_num) (by norm_num) hn

/-- A positive number of `L` decimal digits lies in `[10^(L-1), 10^L)`. -/
theorem decimalLength_bounds {n : Nat} (hn : 0 < n) :
    10 ^ (decimalLength n - 1) ≤ n ∧ n < 10 ^ decimalLength n := by
  fun_induction decimalLength n with
  | case1 n h => simp only [Nat.sub_self, pow_zero, pow_one]; omega
  | case2 n h ih =>
    obtain ⟨hlo, hhi⟩ := ih (by omega)
    -- the digits of `n / 10` are one fewer, and there is at least one
    have hpos : 0 < decimalLength (n / 10) := Nat.pos_of_ne_zero fun h0 => by simp [h0] at hhi; omega
    rw [Nat.add_sub_cancel, pow_succ]
    constructor
    · calc 10 ^ decimalLength (n / 10) = 10 ^ (decimalLength (n / 10) - 1) * 10 := by
            rw [← pow_succ, Nat.sub_add_cancel hpos]
        _ ≤ n := by omega
    · omega

/-- What rounds to a finite non-zero value lies between `2^-1075` and `2^1024`: at least half
the least subnormal step, at most half a step above the greatest mantissa. -/
theorem nearest_bounds {x : Binary64} (hfin : x.isFinite = true) (hzero : x.isZero = false)
    {r : ℚ} (h : Nearest x.decode.1 x.decode.2 x.lowerHalf r) :
    (2 : ℚ) ^ (-1075 : ℤ) ≤ r ∧ r ≤ 2 ^ (1024 : ℤ) := by
  obtain ⟨hm, hm53, -, hq1, hq2⟩ := decode_bounds hfin hzero
  set m := x.decode.1
  set q := x.decode.2
  have hr : r = r * 2 ^ (-q) * 2 ^ q := by
    rw [mul_assoc, ← zpow_add₀ (by norm_num), neg_add_cancel, zpow_zero, mul_one]
  have hm1 : (1 : ℚ) ≤ m := by exact_mod_cast hm
  have hm2 : (m : ℚ) + 1 ≤ 2 ^ 53 := by exact_mod_cast hm53
  have hlo : 1 / 2 ≤ r * 2 ^ (-q) := by
    rcases half_below_of_reach h.1 with h1 | ⟨-, h1⟩ <;> linarith
  have hhi : r * 2 ^ (-q) ≤ 2 ^ 53 := by
    rcases h.2 with h2 | ⟨-, h2⟩ <;> linarith
  have hq1' : (2 : ℚ) ^ (-1074 : ℤ) ≤ 2 ^ q := zpow_le_zpow_right₀ (by norm_num) hq1
  have hq2' : (2 : ℚ) ^ q ≤ 2 ^ (971 : ℤ) := zpow_le_zpow_right₀ (by norm_num) hq2
  constructor
  · calc (2 : ℚ) ^ (-1075 : ℤ) = 1 / 2 * 2 ^ (-1074 : ℤ) := by
          rw [show (-1075 : ℤ) = -1 + -1074 by norm_num, zpow_add₀ (by norm_num)]
          norm_num
      _ ≤ r * 2 ^ (-q) * 2 ^ q := by gcongr
      _ = r := hr.symm
  · calc r = r * 2 ^ (-q) * 2 ^ q := hr
      _ ≤ 2 ^ 53 * 2 ^ (971 : ℤ) := by gcongr
      _ = 2 ^ (1024 : ℤ) := by
          rw [← zpow_natCast, ← zpow_add₀ (by norm_num)]
          norm_num

/-- A decimal `d · 10^k` in the rounding interval of a finite non-zero value is read as that
value: lying between `2^-1075` and `2^1024`, it is clear of both clamps of `ofDecimal`. -/
theorem ofDecimal_of_nearest {x : Binary64} (hfin : x.isFinite = true)
    (hzero : x.isZero = false) {d : Nat} {k : Int} (hd : 0 < d)
    (h : Nearest x.decode.1 x.decode.2 x.lowerHalf ((d : ℚ) * 10 ^ k)) :
    ofDecimal x.negative d k = x := by
  obtain ⟨hlo, hhi⟩ := nearest_bounds hfin hzero h
  obtain ⟨hL1, hL2⟩ := decimalLength_bounds hd
  set L := decimalLength d
  have hL : 0 < L := Nat.pos_of_ne_zero fun h0 => by simp [h0] at hL2; omega
  have hdL1 : (10 : ℚ) ^ ((L : ℤ) - 1) ≤ d := by
    rw [show (L : ℤ) - 1 = ((L - 1 : Nat) : ℤ) by omega, zpow_natCast]
    exact_mod_cast hL1
  have hdL2 : (d : ℚ) < 10 ^ (L : ℤ) := by
    rw [zpow_natCast]
    exact_mod_cast hL2
  have h10 : (0 : ℚ) < 10 ^ k := zpow_pos (by norm_num) k
  -- with `k + L > 400` the decimal would be at least `10^400`
  have hover : ¬ k + L > 400 := by
    intro hk
    have hge : (10 : ℚ) ^ (400 : ℤ) ≤ d * 10 ^ k :=
      calc (10 : ℚ) ^ (400 : ℤ) ≤ 10 ^ ((L : ℤ) - 1 + k) := zpow_le_zpow_right₀ (by norm_num) (by omega)
        _ = 10 ^ ((L : ℤ) - 1) * 10 ^ k := zpow_add₀ (by norm_num) _ _
        _ ≤ d * 10 ^ k := by gcongr
    have hlt : (2 : ℚ) ^ (1024 : ℤ) < 10 ^ (400 : ℤ) :=
      calc (2 : ℚ) ^ (1024 : ℤ) = 2 ^ 1024 := zpow_ofNat _ _
        _ ≤ 2 ^ (3 * 400) := pow_le_pow_right₀ (by norm_num) (by norm_num)
        _ < 10 ^ 400 := two_pow_lt_ten_pow (by norm_num)
        _ = 10 ^ (400 : ℤ) := (zpow_ofNat _ _).symm
    exact lt_irrefl _ (hlt.trans_le (hge.trans hhi))
  -- with `k + L < -400` it would be below `10^-401`
  have hunder : ¬ k + L < -400 := by
    intro hk
    have hlt : (d : ℚ) * 10 ^ k < 10 ^ (-401 : ℤ) :=
      calc (d : ℚ) * 10 ^ k < 10 ^ (L : ℤ) * 10 ^ k := by gcongr
        _ = 10 ^ ((L : ℤ) + k) := (zpow_add₀ (by norm_num) _ _).symm
        _ ≤ 10 ^ (-401 : ℤ) := zpow_le_zpow_right₀ (by norm_num) (by omega)
    have h2 : (2 : ℚ) ^ 1075 < 10 ^ 401 :=
      calc (2 : ℚ) ^ 1075 ≤ 2 ^ (3 * 401) := pow_le_pow_right₀ (by norm_num) (by norm_num)
        _ < 10 ^ 401 := two_pow_lt_ten_pow (by norm_num)
    have hlt' : (10 : ℚ) ^ (-401 : ℤ) < 2 ^ (-1075 : ℤ) := by
      rw [zpow_neg, zpow_neg, zpow_ofNat, zpow_ofNat]
      exact inv_strictAnti₀ (by positivity) h2
    exact lt_irrefl _ (hlo.trans_lt (hlt.trans hlt'))
  have hval : ((d * 10 ^ k.toNat : Nat) : ℚ) / ((10 ^ (-k).toNat : Nat) : ℚ) = d * 10 ^ k := by
    push_cast
    rw [mul_div_assoc, zpow_toNat_div]
  simp only [ofDecimal, hd.ne', if_false, Nat.pow_eq]
  rw [if_neg hover, if_neg hunder]
  exact ofRatio_of_nearest hfin hzero (Nat.pos_of_ne_zero (by positivity)) (hval ▸ h)

end Binary64
end QueryShield
