import Mathlib
import QueryShield.Proofs.Json.NumberText
import QueryShield.Proofs.Number.DigitBound

/-!
# Reading the text of a double back

The printer writes a finite double as its shortest digits in one of five forms (a whole
number with `.0`, a point inside the digits, `0.` and zeros before them, or an exponent form
with one digit or with a point after the first), and a zero as `0.0`; a sign goes first.  The
reader takes such a text as the digits with the point left out and the power of ten the text
shows, `decimalOfText`, and then makes a double of them with its own arithmetic: the digits
rounded to a double, scaled by the double nearest to the power of ten (`fromParts`).

`continues_readNumber_exchangeBody` follows the reader through each form; it needs the digits
to fit in 64 bits, which `shortestOf_lt` gives.  The result is `Binary64.textReading?`: the
double the reader makes of the text of a double, or nothing when the scaling overflows.  It is
not always the double that was written: the scaling rounds twice.
-/

namespace QueryShield

namespace Binary64

/-- The double the reader makes of the data-interchange text of `x`: the digits the text shows
rounded to a double, then multiplied or divided by the double nearest to the power of ten the
text shows, one rounding per step, with the sign of the text; `none` when that overflows. -/
def textReading? (x : Binary64) : Option Binary64 :=
  let r := decimalOfText x.exchangeText.toList
  (Json.scaleByTen (ofNat r.2.1) r.2.2 12).map fun f => if r.1 then f.negate else f

/-! ## Texts with a point or an exponent -/

theorem unsignedDecimal_point {w f : List Char} (hw : IsDigits w) (hf : IsDigits f) :
    unsignedDecimal (w ++ '.' :: f) = (digitValue (w ++ f), -(f.length : Int)) := by
  rw [unsignedDecimal_of_no_exponent (no_exponent_point_split hf hw), cutAt_point_split hw]

theorem unsignedDecimal_point_exponent {w f : List Char} (hw : IsDigits w) (hf : IsDigits f)
    (e : Int) :
    unsignedDecimal (w ++ '.' :: (f ++ (exponentText e).toList)) =
      (digitValue (w ++ f), e - f.length) := by
  have h := unsignedDecimal_exponentText (no_exponent_point_split hf hw) e
  rw [cutAt_point_split hw] at h
  simpa only [List.append_assoc, List.cons_append] using h

/-! ## The digits of a number -/

/-- The decimal digits of a positive number do not start with `0`. -/
theorem toDigits_head_ne_zero {d : Nat} (hd : 0 < d) :
    ∃ c ws, Nat.toDigits 10 d = c :: ws ∧ c ≠ '0' := by
  induction d using Nat.strong_induction_on with
  | _ d ih =>
    rcases lt_or_ge d 10 with h | h
    · refine ⟨Nat.digitChar d, [], Nat.toDigits_of_lt_base h, ?_⟩
      interval_cases d <;> decide
    · -- the digits of `d` are those of `d / 10`, then the last one
      obtain ⟨c, ws, hcw, hc⟩ := ih (d / 10) (by omega) (by omega)
      refine ⟨c, ws ++ Nat.toDigits 10 (d % 10), ?_, hc⟩
      have hsplit := Nat.toDigits_append_toDigits (b := 10) (n := d / 10) (d := d % 10)
        (by norm_num) (by omega) (Nat.mod_lt d (by norm_num))
      rw [Nat.div_add_mod] at hsplit
      rw [← hsplit, hcw, List.cons_append]

/-- Digits read onto `init` stay below `init + 1` shifted by their number. -/
theorem ofDigitChars_lt {l : List Char} (hl : IsDigits l) (init : Nat) :
    Nat.ofDigitChars 10 l init < (init + 1) * 10 ^ l.length := by
  induction l generalizing init with
  | nil => simp
  | cons c l ih =>
    have hc := Json.digitValue_lt (hl c (by simp))
    have hrest := ih (fun d hd => hl d (List.mem_cons_of_mem c hd)) (init * 10 + Json.digitValue c)
    rw [Json.ofDigitChars_cons_digit, List.length_cons, pow_succ]
    calc Nat.ofDigitChars 10 l (init * 10 + Json.digitValue c)
        < (init * 10 + Json.digitValue c + 1) * 10 ^ l.length := hrest
      _ ≤ (init + 1) * 10 * 10 ^ l.length := Nat.mul_le_mul_right _ (by omega)
      _ = (init + 1) * (10 ^ l.length * 10) := by ring

theorem digitValue_lt_ten_pow {l : List Char} (hl : IsDigits l) : digitValue l < 10 ^ l.length := by
  have h := ofDigitChars_lt hl 0
  rwa [zero_add, one_mul] at h

/-- Zeros in front of digits do not change their value. -/
theorem digitValue_zeros_append (m : Nat) (l : List Char) :
    digitValue (List.replicate m '0' ++ l) = digitValue l := by
  have hzeros : Nat.ofDigitChars 10 (List.replicate m '0') 0 = 0 := by
    induction m with
    | zero => rfl
    | succ m ih => rw [List.replicate_succ, Nat.ofDigitChars_cons]; simp [ih]
  rw [digitValue, Nat.ofDigitChars_append, hzeros]
  rfl

end Binary64

namespace Json

open Binary64

/-- The digit text of a positive number below `10^19`, as the printer's forms need it. -/
structure DigitText (s : List Char) (d : Nat) : Prop where
  digits : IsDigits s
  value : Binary64.digitValue s = d
  lead : ∃ c ws, s = c :: ws ∧ c ≠ '0'
  short : s.length ≤ 19

theorem digitText_toString {d : Nat} (hd : 0 < d) (hd19 : d < 10 ^ 19) :
    DigitText (toString d).toList d := by
  rw [toString_toList]
  exact ⟨isDigits_toDigits d, digitValue_toDigits d, toDigits_head_ne_zero hd,
    Nat.toDigits_length 10 d 19 (by norm_num) hd19⟩

theorem ten_pow_nineteen_le_maxUnsigned : 10 ^ 19 ≤ maxUnsigned := by
  unfold maxUnsigned
  norm_num

namespace DigitText

variable {s : List Char} {d : Nat} (h : DigitText s d)
include h

theorem ne_nil : s ≠ [] := by
  obtain ⟨c, ws, rfl, -⟩ := h.lead
  exact List.cons_ne_nil c ws

theorem le_maxUnsigned : Binary64.digitValue s ≤ maxUnsigned :=
  le_trans (le_trans (digitValue_lt_ten_pow h.digits).le (Nat.pow_le_pow_right (by norm_num) h.short))
    ten_pow_nineteen_le_maxUnsigned

/-- The digits, with zeros after them, lead a number. -/
theorem leadDigits_append_zeros (m : Nat) : LeadDigits (s ++ List.replicate m '0') := by
  obtain ⟨c, ws, hs, hc⟩ := h.lead
  exact ⟨h.digits.append (isDigits_replicate_zero m), .inr ⟨c, ws ++ _, by rw [hs]; rfl, hc⟩⟩

/-- Some first digits lead a number. -/
theorem leadDigits_take {j : Nat} (hj : 0 < j) : LeadDigits (s.take j) := by
  obtain ⟨c, ws, hs, hc⟩ := h.lead
  obtain ⟨i, rfl⟩ : ∃ i, j = i + 1 := ⟨j - 1, by omega⟩
  exact ⟨h.digits.take _, .inr ⟨c, ws.take i, by rw [hs]; rfl, hc⟩⟩

end DigitText

theorem isDigits_zero : IsDigits ['0'] := isDigits_replicate_zero 1

theorem leadDigits_zero : LeadDigits ['0'] := ⟨isDigits_zero, .inl rfl⟩

/-! ## The five forms -/

theorem two_pow_thirty_one : Nat.pow 2 31 = 2147483648 := rfl

/-- The reader takes the body of the text of a non-zero double, its shortest digits `s` at the
exponent `k`, as the digits and the power of ten the body shows. -/
theorem continues_readNumber_exchangeBody (positive : Bool) {s : String} {d : Nat}
    (hs : DigitText s.toList d) {k : Int} (hk : -400 ≤ k ∧ k ≤ 400) {t : List Char}
    (ht : EndsNumber t) :
    Continues (readNumber positive)
      (fromParts positive (unsignedDecimal (exchangeBody s k).toList).1
        (unsignedDecimal (exchangeBody s k).toList).2 >>= fun x => pure (JsonNumber.float x))
      (exchangeBody s k).toList t := by
  have hlen : s.toList.length = s.length := String.length_toList
  have hpos : 0 < s.length := hlen ▸ List.length_pos_iff.2 hs.ne_nil
  have hn := hs.short
  simp only [exchangeBody]
  split_ifs with h1 h2 h3 h4
  · -- a whole number: the digits, zeros and `.0`
    simp only [Bool.and_eq_true, decide_eq_true_eq] at h1
    have htext : (s ++ zeros k.toNat ++ ".0").toList =
        s.toList ++ List.replicate k.toNat '0' ++ ['.', '0'] := by
      simp [zeros_toList]
    have hw := hs.leadDigits_append_zeros k.toNat
    have hmax : Binary64.digitValue (s.toList ++ List.replicate k.toNat '0' ++ ['0']) ≤
        maxUnsigned := by
      have hv := digitValue_lt_ten_pow (hw.1.append isDigits_zero)
      simp only [List.length_append, List.length_replicate, List.length_singleton] at hv
      have hle : 10 ^ (s.toList.length + k.toNat + 1) ≤ 10 ^ 19 :=
        Nat.pow_le_pow_right (by norm_num) (by omega)
      exact le_trans (le_trans hv.le hle) ten_pow_nineteen_le_maxUnsigned
    rw [htext, unsignedDecimal_point hw.1 isDigits_zero]
    exact continues_readNumber_point positive hw isDigits_zero (List.cons_ne_nil _ _) ht hmax
  · -- a point inside the digits
    simp only [Bool.and_eq_true, decide_eq_true_eq, not_and] at h1 h2
    set j := (s.length + k).toNat with hj
    have hj0 : 0 < j := by omega
    have hjn : j < s.toList.length := by omega
    have htext : (String.ofList (s.toList.take j) ++ "." ++ String.ofList (s.toList.drop j)).toList =
        s.toList.take j ++ '.' :: s.toList.drop j := by
      simp
    have hf : IsDigits (s.toList.drop j) := hs.digits.drop j
    have hne : s.toList.drop j ≠ [] := by simp; omega
    rw [htext, unsignedDecimal_point (hs.digits.take j) hf]
    refine continues_readNumber_point positive (hs.leadDigits_take hj0) hf hne ht ?_
    rw [List.take_append_drop]
    exact hs.le_maxUnsigned
  · -- `0.`, zeros, then the digits
    simp only [Bool.and_eq_true, decide_eq_true_eq, not_and] at h1 h2 h3
    have htext : ("0." ++ zeros (-(s.length + k)).toNat ++ s).toList =
        ['0'] ++ '.' :: (List.replicate (-(s.length + k)).toNat '0' ++ s.toList) := by
      simp [zeros_toList]
    have hf : IsDigits (List.replicate (-(s.length + k)).toNat '0' ++ s.toList) :=
      (isDigits_replicate_zero _).append hs.digits
    have hne : List.replicate (-(s.length + k)).toNat '0' ++ s.toList ≠ [] := by
      simp [hs.ne_nil]
    rw [htext, unsignedDecimal_point isDigits_zero hf]
    refine continues_readNumber_point positive leadDigits_zero hf hne ht ?_
    rw [show ['0'] = List.replicate 1 '0' from rfl, ← List.append_assoc, ← List.replicate_add]
    exact (digitValue_zeros_append _ _).trans_le hs.le_maxUnsigned
  · -- one digit and an exponent
    simp only [beq_iff_eq] at h4
    have htext : (s ++ exponentText (s.length + k - 1)).toList =
        s.toList ++ (exponentText (s.length + k - 1)).toList := by
      simp
    rw [htext, unsignedDecimal_digits_exponent hs.digits]
    obtain ⟨c, ws, hcw, hc⟩ := hs.lead
    exact continues_readNumber_exponent positive _ ⟨hs.digits, .inr ⟨c, ws, hcw, hc⟩⟩
      ht.noDigitAhead hs.le_maxUnsigned (by rw [two_pow_thirty_one]; omega)
  · -- the first digit, a point, the others and an exponent
    simp only [beq_iff_eq] at h4
    have h2len : 2 ≤ s.toList.length := by omega
    have htext : (String.ofList (s.toList.take 1) ++ "." ++ String.ofList (s.toList.drop 1) ++
        exponentText (s.length + k - 1)).toList =
        s.toList.take 1 ++ '.' :: (s.toList.drop 1 ++ (exponentText (s.length + k - 1)).toList) := by
      simp
    have hf : IsDigits (s.toList.drop 1) := hs.digits.drop 1
    have hne : s.toList.drop 1 ≠ [] :=
      List.ne_nil_of_length_pos (by rw [List.length_drop]; omega)
    rw [htext, unsignedDecimal_point_exponent (hs.digits.take 1) hf]
    refine continues_readNumber_point_exponent positive _ (hs.leadDigits_take one_pos) hf hne
      ht.noDigitAhead ?_ ?_
    · rw [List.take_append_drop]
      exact hs.le_maxUnsigned
    · rw [List.length_drop, two_pow_thirty_one]
      omega

/-! ## The text of a double -/

/-- The reading of an optional double: the double, or the reader's overflow fault. -/
def numberOrOverflow (o : Option Binary64) : Reading Binary64 :=
  o.elim (failHere "number out of range") pure

theorem fromParts_eq (positive : Bool) (sig : Nat) (e : Int) :
    fromParts positive sig e = numberOrOverflow
      ((scaleByTen (Binary64.ofNat sig) e 12).map fun f => if positive then f else f.negate) := by
  unfold fromParts numberOrOverflow
  cases scaleByTen (Binary64.ofNat sig) e 12 <;> rfl

/-- Reading the body of the text of a double, the sign left out, makes `textReading?`. -/
theorem numberOrOverflow_textReading? {x : Binary64} {c : Char} {body : List Char}
    (hc : c.isDigit = true)
    (htext : x.exchangeText.toList = (if x.negative then "-" else "").toList ++ c :: body) :
    numberOrOverflow x.textReading? =
      fromParts (!x.negative) (unsignedDecimal (c :: body)).1 (unsignedDecimal (c :: body)).2 := by
  unfold textReading?
  rw [htext, decimalOfText_sign _ hc, fromParts_eq]
  cases x.negative <;> simp

/-- The text of a finite double is its sign, then a body that starts with a digit, from which
the reader makes `textReading?` and goes on with what ends the number. -/
theorem continues_readNumber_exchangeText {x : Binary64} (hfin : x.isFinite = true)
    {t : List Char} (ht : EndsNumber t) :
    ∃ c body, x.exchangeText.toList = (if x.negative then "-" else "").toList ++ c :: body ∧
      c.isDigit = true ∧
      Continues (readNumber (!x.negative))
        (numberOrOverflow x.textReading? >>= fun y => pure (JsonNumber.float y)) (c :: body) t := by
  cases hz : x.isZero with
  | true =>
    have htext : x.exchangeText.toList = (if x.negative then "-" else "").toList ++ ['0', '.', '0'] := by
      rw [exchangeText_of_isZero hz, String.toList_append]
      rfl
    refine ⟨'0', ['.', '0'], htext, rfl, ?_⟩
    rw [numberOrOverflow_textReading? rfl htext,
      show ['0', '.', '0'] = ['0'] ++ '.' :: ['0'] from rfl, unsignedDecimal_point isDigits_zero isDigits_zero]
    exact continues_readNumber_point _ leadDigits_zero isDigits_zero (List.cons_ne_nil _ _) ht
      (by unfold maxUnsigned; decide)
  | false =>
    obtain ⟨hm, hm53, hlh, hq1, hq2⟩ := decode_bounds hfin hz
    have hspec := shortestOf_spec hm hm53 hlh ⟨hq1, hq2⟩
    have hlt := shortestOf_lt hm hm53 hlh ⟨hq1, hq2⟩
    have htext := exchangeText_of_ne_zero hz
    rw [shortest_eq] at htext
    generalize shortestOf x.decode.1 x.decode.2 x.lowerHalf = p at hspec hlt htext
    obtain ⟨d, k⟩ := p
    obtain ⟨hd, -, hk1, hk2, -⟩ := hspec
    have hs := digitText_toString hd hlt
    obtain ⟨c, body, hbody, hc⟩ := exchangeBody_head hs.digits hs.ne_nil k
    have htext' : x.exchangeText.toList = (if x.negative then "-" else "").toList ++ c :: body := by
      rw [htext, String.toList_append, hbody]
    refine ⟨c, body, htext', hc, ?_⟩
    rw [numberOrOverflow_textReading? hc htext', ← hbody]
    exact continues_readNumber_exchangeBody _ hs ⟨hk1, hk2⟩ ht

end Json
end QueryShield
