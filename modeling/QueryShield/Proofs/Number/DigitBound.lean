import Mathlib
import QueryShield.Proofs.Number.Shortest

/-!
# How many shortest digits there are

`decimalExponent` never overshoots the decimal exponent of a value (`decimalExponent_spec`).
This module bounds it from the other side: the value stays below `200 · 10^E`
(`lt_two_hundred_mul_decimalExponent`).  The estimate from the leading bit errs by less than
two (`two_zpow_le_ten_zpow`), and of the two corrections up, the last one either leaves the
value below the next power of ten or follows another correction up.

The shortest digits are found at an exponent at least sixteen below `E`, so they are fewer
than nineteen: `(shortestOf m q lh).1 < 10^19` (`shortestOf_lt`).  That is what lets a reader
gather them in a 64-bit integer.
-/

namespace QueryShield
namespace Binary64

/-- A power of two stays below the power of ten two above the estimate `30103 / 100000` per
binary digit: `2^93 ≤ 10^28` bounds the twos above zero, `10^59 ≤ 2^196` the tens below it. -/
theorem two_zpow_le_ten_zpow {a b : Int} (hab : 30103 * a < 100000 * b + 100000)
    (hlo : -1100 ≤ a) (hhi : a ≤ 1100) : (2 : ℚ) ^ a ≤ 10 ^ (b + 2) := by
  rcases le_or_gt 0 a with ha | ha
  · obtain ⟨A, hA⟩ : ∃ A : Nat, a = A := ⟨a.toNat, by omega⟩
    obtain ⟨B, hB⟩ : ∃ B : Nat, b + 2 = B := ⟨(b + 2).toNat, by omega⟩
    rw [hA, hB, zpow_natCast, zpow_natCast]
    have h28 : 28 * A ≤ 93 * B := by omega
    have key : (2 ^ A) ^ 93 ≤ (10 ^ B) ^ 93 := by
      calc (2 ^ A) ^ 93 = (2 ^ 93) ^ A := by rw [← pow_mul, ← pow_mul, mul_comm]
        _ ≤ (10 ^ 28) ^ A := Nat.pow_le_pow_left (by norm_num) A
        _ = 10 ^ (28 * A) := by rw [← pow_mul]
        _ ≤ 10 ^ (93 * B) := Nat.pow_le_pow_right (by norm_num) h28
        _ = (10 ^ B) ^ 93 := by rw [← pow_mul, mul_comm]
    exact_mod_cast (Nat.pow_le_pow_iff_left (by norm_num)).1 key
  · rcases le_or_gt 0 (b + 2) with hb | hb
    · calc (2 : ℚ) ^ a ≤ 1 := zpow_le_one_of_nonpos₀ (by norm_num) ha.le
        _ ≤ 10 ^ (b + 2) := one_le_zpow₀ (by norm_num) hb
    · obtain ⟨A, hA⟩ : ∃ A : Nat, a = -A := ⟨(-a).toNat, by omega⟩
      obtain ⟨C, hC⟩ : ∃ C : Nat, b + 2 = -C := ⟨(-(b + 2)).toNat, by omega⟩
      rw [hA, hC, zpow_neg, zpow_neg, zpow_natCast, zpow_natCast,
        inv_le_inv₀ (by positivity) (by positivity)]
      have h196 : 196 * C ≤ 59 * A := by omega
      have key : (10 ^ C) ^ 196 ≤ (2 ^ A) ^ 196 := by
        calc (10 ^ C) ^ 196 = 10 ^ (196 * C) := by rw [← pow_mul, mul_comm]
          _ ≤ 10 ^ (59 * A) := Nat.pow_le_pow_right (by norm_num) h196
          _ = (10 ^ 59) ^ A := by rw [← pow_mul]
          _ ≤ (2 ^ 196) ^ A := Nat.pow_le_pow_left (by norm_num) A
          _ = (2 ^ A) ^ 196 := by rw [← pow_mul, ← pow_mul, mul_comm]
      exact_mod_cast (Nat.pow_le_pow_iff_left (by norm_num)).1 key

/-- A correction up that does not move leaves the value below the next power of ten. -/
theorem stepUp_cases_lt (m : Nat) (q e : Int) :
    (stepUp m q e = e ∧ (m : ℚ) * 2 ^ q < 10 ^ (e + 1)) ∨
      (stepUp m q e = e + 1 ∧ (10 : ℚ) ^ (e + 1) ≤ m * 2 ^ q) := by
  unfold stepUp
  split_ifs with hc
  · refine .inl ⟨rfl, ?_⟩
    rw [compareScaled_eq] at hc
    simpa [compare_gt_iff_gt] using hc
  · refine .inr ⟨rfl, ?_⟩
    rw [compareScaled_eq] at hc
    simpa [compare_gt_iff_gt] using hc

/-- A positive double is below two hundred times the power of ten `decimalExponent` finds. -/
theorem lt_two_hundred_mul_decimalExponent {m : Nat} {q : Int} (hm : 0 < m) (hm53 : m < 2 ^ 53)
    (hq : -1074 ≤ q ∧ q ≤ 971) :
    (m : ℚ) * 2 ^ q < 200 * 10 ^ decimalExponent m q := by
  have hlog : m.log2 ≤ 52 := by
    have := (Nat.log2_lt hm.ne').2 hm53
    omega
  -- the value is below the power of two one above its leading bit
  have hlead : (m : ℚ) * 2 ^ q < 2 * 2 ^ ((m.log2 : Int) + q) := by
    rw [zpow_add₀ (by norm_num), zpow_natCast, ← mul_assoc, ← pow_succ']
    exact mul_lt_mul_of_pos_right (by exact_mod_cast Nat.lt_log2_self) (zpow_pos (by norm_num) q)
  have hest : 30103 * ((m.log2 : Int) + q) <
      100000 * Int.fdiv (((m.log2 : Int) + q) * 30103) 100000 + 100000 := by
    rw [Int.fdiv_eq_ediv]
    simp only [Nat.ofNat_nonneg, true_or, if_true, sub_zero]
    omega
  rw [decimalExponent_eq]
  generalize Int.fdiv (((m.log2 : Int) + q) * 30103) 100000 = est at hest ⊢
  have hbelow : (m : ℚ) * 2 ^ q < 200 * 10 ^ est := by
    have h2 := two_zpow_le_ten_zpow hest (by omega) (by omega)
    have h100 : (10 : ℚ) ^ (est + 2) = 100 * 10 ^ est := by
      rw [zpow_add₀ (by norm_num)]; norm_num; ring
    linarith
  -- the corrections down lower the estimate by two at most
  have c1 := stepDown_cases m q est
  generalize stepDown m q est = d1 at c1 ⊢
  have c2 := stepDown_cases m q d1
  generalize stepDown m q d1 = d2 at c2 ⊢
  have b2 : est - 2 ≤ d2 := by
    rcases c1 with h | ⟨h, -⟩ <;> rcases c2 with h' | ⟨h', -⟩ <;> omega
  have c3 := stepUp_cases_lt m q d2
  generalize stepUp m q d2 = u1 at c3 ⊢
  have c4 := stepUp_cases_lt m q u1
  generalize stepUp m q u1 = u2 at c4 ⊢
  have hpos (e : Int) : (0 : ℚ) < 10 ^ e := zpow_pos (by norm_num) e
  rcases c4 with ⟨h4, hlt⟩ | ⟨h4, hle⟩
  · rw [h4]
    have h10 : (10 : ℚ) ^ (u1 + 1) = 10 * 10 ^ u1 := by
      rw [zpow_add_one₀ (by norm_num), mul_comm]
    linarith [hpos u1]
  · rw [h4]
    rcases c3 with ⟨h3, hlt⟩ | ⟨h3, -⟩
    · -- the first correction up stayed, so the second cannot move
      rw [h3] at hle
      linarith
    · have hmono : (10 : ℚ) ^ est ≤ 10 ^ (u1 + 1) :=
        zpow_le_zpow_right₀ (by norm_num) (by omega)
      linarith

/-- The shortest digits of a positive double are fewer than nineteen. -/
theorem shortestOf_lt {m : Nat} {q : Int} {lh : Bool} (hm : 0 < m) (hm53 : m < 2 ^ 53)
    (hlh : lh = true → m = 2 ^ 52) (hq : -1074 ≤ q ∧ q ≤ 971) :
    (shortestOf m q lh).1 < 10 ^ 19 := by
  obtain ⟨-, hN, -, -, hk⟩ := shortestOf_spec hm hm53 hlh hq
  have hval := lt_two_hundred_mul_decimalExponent hm hm53 hq
  generalize shortestOf m q lh = p at hN hk
  generalize decimalExponent m q = E at hk hval
  obtain ⟨d, k⟩ := p
  dsimp only at hN hk ⊢
  -- the digits are within half a unit of the value, so below one and a half times it
  have hs : (0 : ℚ) < 2 ^ q := zpow_pos (by norm_num) q
  have hhalf : (d : ℚ) * 10 ^ k * 2 ^ (-q) ≤ m + 1 / 2 := by
    rcases hN.2 with h | ⟨-, h⟩ <;> linarith
  have hback : (d : ℚ) * 10 ^ k = (d * 10 ^ k * 2 ^ (-q)) * 2 ^ q := by
    rw [mul_assoc _ (2 ^ (-q)), ← zpow_add₀ (by norm_num), neg_add_cancel, zpow_zero, mul_one]
  have hm1 : (1 : ℚ) ≤ m := by exact_mod_cast hm
  have hup : (d : ℚ) * 10 ^ k ≤ 3 / 2 * (m * 2 ^ q) := by
    rw [hback]
    have := mul_le_mul_of_nonneg_right hhalf hs.le
    nlinarith
  -- at an exponent at least sixteen below `E`, they are below `300 · 10^16`
  have hE : (0 : ℚ) < 10 ^ (E - 16) := zpow_pos (by norm_num) _
  have hk' : (10 : ℚ) ^ (E - 16) ≤ 10 ^ k := zpow_le_zpow_right₀ (by norm_num) hk
  have h16 : (10 : ℚ) ^ E = 10 ^ 16 * 10 ^ (E - 16) := by
    rw [← zpow_natCast, ← zpow_add₀ (by norm_num)]; ring_nf
  have hd0 : (0 : ℚ) ≤ d := by positivity
  have hlt : (d : ℚ) * 10 ^ (E - 16) < 10 ^ 19 * 10 ^ (E - 16) := by
    calc (d : ℚ) * 10 ^ (E - 16) ≤ d * 10 ^ k := mul_le_mul_of_nonneg_left hk' hd0
      _ ≤ 3 / 2 * (m * 2 ^ q) := hup
      _ < 3 / 2 * (200 * 10 ^ E) := by linarith
      _ = 300 * 10 ^ 16 * 10 ^ (E - 16) := by rw [h16]; ring
      _ < 10 ^ 19 * 10 ^ (E - 16) := by
        exact mul_lt_mul_of_pos_right (by norm_num) hE
  exact_mod_cast lt_of_mul_lt_mul_right hlt hE.le

end Binary64
end QueryShield
