import Mathlib
import QueryShield.Proofs.Number.Shortest

/-!
# The data-interchange text of a double determines it

`Binary64.exchangeText` writes a finite double as its shortest digits, positionally or with an
exponent, always with a point or an exponent.  This module reads such a text back as a decimal
(`decimalOfText`: the sign, the digits with the point left out, and the power of ten that
scales them) and shows that the decimal rounds to the double that was written
(`readExchange_exchangeText`).  So two finite doubles with one text are one double
(`exchangeText_injective`).

Each of the five ways of writing moves the point or the exponent but keeps the digits, so the
decimal read back is the shortest digits `d · 10^k` themselves, except for a whole number
written with `.0`, which reads as `(10 · d · 10^k) · 10^-1`.  Either way its value is the
value of the shortest digits, in the rounding interval of the double, which is all
`ofDecimal_of_nearest` needs.
-/

namespace QueryShield
namespace Binary64

/-! ## Reading a decimal text -/

/-- The text before the first `sep`, and the text after it (empty when there is none). -/
def cutAt (sep : Char) (t : List Char) : List Char × List Char :=
  (t.takeWhile (· != sep), (t.dropWhile (· != sep)).drop 1)

/-- The number a run of decimal digits writes. -/
def digitValue (t : List Char) : Nat := Nat.ofDigitChars 10 t 0

/-- The integer an exponent writes: an optional sign, then its digits. -/
def exponentValue (t : List Char) : Int :=
  if t.head? = some '-' then -(digitValue (t.drop 1) : Int)
  else if t.head? = some '+' then digitValue (t.drop 1)
  else digitValue t

/-- The digits and the power of ten of an unsigned number text: digits, optionally a point
and more digits, optionally `e` and an exponent.  The digits are read with the point left
out, so the power of ten is the exponent less the number of fractional digits. -/
def unsignedDecimal (t : List Char) : Nat × Int :=
  let parts := cutAt 'e' t
  let mantissa := cutAt '.' parts.1
  (digitValue (mantissa.1 ++ mantissa.2), exponentValue parts.2 - mantissa.2.length)

/-- The decimal a number text writes: its sign, its digits and the power of ten. -/
def decimalOfText (t : List Char) : Bool × Nat × Int :=
  if t.head? = some '-' then (true, unsignedDecimal (t.drop 1)) else (false, unsignedDecimal t)

/-- The double a data-interchange text stands for: its decimal, rounded to the nearest. -/
def readExchange (t : String) : Binary64 :=
  let r := decimalOfText t.toList
  ofDecimal r.1 r.2.1 r.2.2

/-! ## Cutting and digits -/

theorem cutAt_of_forall_ne {sep : Char} {t : List Char} (h : ∀ c ∈ t, c ≠ sep) :
    cutAt sep t = (t, []) := by
  have hp : ∀ c ∈ t, (c != sep) = true := fun c hc => by simpa using h c hc
  simp [cutAt, List.takeWhile_eq_self_iff.2 hp, List.dropWhile_eq_nil_iff.2 hp]

theorem cutAt_append_cons {sep : Char} {a : List Char} (b : List Char) (h : ∀ c ∈ a, c ≠ sep) :
    cutAt sep (a ++ sep :: b) = (a, b) := by
  have hp : ∀ c ∈ a, (c != sep) = true := fun c hc => by simpa using h c hc
  simp [cutAt, List.takeWhile_append_of_pos hp, List.dropWhile_append_of_pos hp]

/-- The digit characters: those of `Char.isDigit`. -/
def IsDigits (t : List Char) : Prop := ∀ c ∈ t, c.isDigit = true

theorem IsDigits.ne {t : List Char} (h : IsDigits t) {c : Char} (hc : c ∈ t) :
    c ≠ '.' ∧ c ≠ 'e' ∧ c ≠ '-' ∧ c ≠ '+' := by
  have := h c hc
  refine ⟨?_, ?_, ?_, ?_⟩ <;> rintro rfl <;> simp [Char.isDigit] at this

theorem isDigits_toDigits (d : Nat) : IsDigits (Nat.toDigits 10 d) :=
  fun _ hc => Nat.isDigit_of_mem_toDigits (by decide) (by decide) hc

theorem isDigits_replicate_zero (m : Nat) : IsDigits (List.replicate m '0') := by
  intro c hc
  rw [List.eq_of_mem_replicate hc]
  decide

theorem IsDigits.append {a b : List Char} (ha : IsDigits a) (hb : IsDigits b) :
    IsDigits (a ++ b) := by
  intro c hc
  rcases List.mem_append.1 hc with h | h
  · exact ha c h
  · exact hb c h

theorem digitValue_toDigits (d : Nat) : digitValue (Nat.toDigits 10 d) = d :=
  Nat.ofDigitChars_ten_toDigits

/-- The digits of a number, as its decimal text shows them. -/
theorem toString_toList (d : Nat) : (toString d).toList = Nat.toDigits 10 d := by
  simp only [Nat.toString_eq_repr, Nat.toList_repr]

theorem cutAt_point_split {w : List Char} (hw : IsDigits w) (f : List Char) :
    cutAt '.' (w ++ '.' :: f) = (w, f) :=
  cutAt_append_cons _ fun _ hc => (hw.ne hc).1

/-! ## The mantissa and the exponent -/

theorem exponentText_toList (e : Int) :
    (exponentText e).toList =
      'e' :: (if 0 ≤ e then '+' else '-') :: Nat.toDigits 10 e.natAbs := by
  rcases e with m | m
  · simp [exponentText, Int.repr]
  · have : ¬(0 : Int) ≤ Int.negSucc m := by omega
    simp [exponentText, this, Int.repr, Int.natAbs_negSucc]

/-- The exponent written after `e` reads back as itself. -/
theorem exponentValue_exponentText (e : Int) : exponentValue ((exponentText e).toList.drop 1) = e := by
  rw [exponentText_toList]
  by_cases h : 0 ≤ e
  · simp [exponentValue, h, digitValue_toDigits]
  · simp [exponentValue, h, digitValue_toDigits]
    rw [abs_of_neg (by omega), neg_neg]

/-- A mantissa with no exponent: its digits over the length of its fraction. -/
theorem unsignedDecimal_of_no_exponent {m : List Char} (h : ∀ c ∈ m, c ≠ 'e') :
    unsignedDecimal m =
      (digitValue ((cutAt '.' m).1 ++ (cutAt '.' m).2), -((cutAt '.' m).2.length : Int)) := by
  simp [unsignedDecimal, cutAt_of_forall_ne h, exponentValue, digitValue]

/-- A mantissa and an exponent text: its digits, the exponent less the length of its fraction. -/
theorem unsignedDecimal_exponentText {m : List Char} (h : ∀ c ∈ m, c ≠ 'e') (e : Int) :
    unsignedDecimal (m ++ (exponentText e).toList) =
      (digitValue ((cutAt '.' m).1 ++ (cutAt '.' m).2), e - (cutAt '.' m).2.length) := by
  have hsplit : (exponentText e).toList = 'e' :: (exponentText e).toList.drop 1 := by
    rw [exponentText_toList]
    rfl
  rw [hsplit]
  simp only [unsignedDecimal, cutAt_append_cons _ h]
  rw [exponentValue_exponentText]

section Mantissa

variable {s : List Char} (hs : IsDigits s)
include hs

theorem cutAt_point_digits : cutAt '.' s = (s, []) :=
  cutAt_of_forall_ne fun _ hc => (hs.ne hc).1

theorem no_exponent_point_split {w : List Char} (hw : IsDigits w) :
    ∀ c ∈ w ++ '.' :: s, c ≠ 'e' := by
  intro c hc
  rcases List.mem_append.1 hc with h | h
  · exact (hw.ne h).2.1
  · rcases List.mem_cons.1 h with rfl | h
    · decide
    · exact (hs.ne h).2.1

end Mantissa

/-! ## The five ways of writing, read back -/

/-- The text after the sign: what `exchangeText` writes for the digits `s · 10^k` of a
non-zero value. -/
def exchangeBody (s : String) (k : Int) : String :=
  let n : Int := s.length
  let kk := n + k
  if 0 ≤ k && kk ≤ 16 then s ++ zeros k.toNat ++ ".0"
  else if 0 < kk && kk ≤ 16 then
    String.ofList (s.toList.take kk.toNat) ++ "." ++ String.ofList (s.toList.drop kk.toNat)
  else if -5 < kk && kk ≤ 0 then "0." ++ zeros (-kk).toNat ++ s
  else if n == 1 then s ++ exponentText (kk - 1)
  else String.ofList (s.toList.take 1) ++ "." ++ String.ofList (s.toList.drop 1) ++
    exponentText (kk - 1)

theorem exchangeText_of_isZero {x : Binary64} (h : x.isZero = true) :
    x.exchangeText = (if x.negative then "-" else "") ++ "0.0" := by
  simp [exchangeText, h]

theorem exchangeText_of_ne_zero {x : Binary64} (h : x.isZero = false) :
    x.exchangeText = (if x.negative then "-" else "") ++ exchangeBody x.shortest.1 x.shortest.2 := by
  simp only [exchangeText, h, Bool.false_eq_true, if_false, exchangeBody]

theorem zeros_toList (m : Nat) : (zeros m).toList = List.replicate m '0' := by
  simp [zeros]

/-- What the body is, case by case: the digits with zeros and `.0` (a whole number), the
digits with a point inside them, `0.` with zeros before the digits, or the exponent form with
one digit or with a point after the first digit. -/
theorem exchangeBody_shape (s : String) (k : Int) :
    (∃ m : Nat, k = m ∧ (exchangeBody s k).toList = s.toList ++ List.replicate m '0' ++ ['.', '0']) ∨
    (∃ j : Nat, 0 < j ∧ j < s.length ∧ k = (j : Int) - s.length ∧
      (exchangeBody s k).toList = s.toList.take j ++ '.' :: s.toList.drop j) ∨
    (∃ m : Nat, k = -((m + s.length : Nat) : Int) ∧
      (exchangeBody s k).toList = ['0'] ++ '.' :: (List.replicate m '0' ++ s.toList)) ∨
    (s.length = 1 ∧ (exchangeBody s k).toList = s.toList ++ (exponentText k).toList) ∨
    (exchangeBody s k).toList =
      s.toList.take 1 ++ '.' :: s.toList.drop 1 ++ (exponentText (k + s.length - 1)).toList := by
  simp only [exchangeBody]
  split_ifs with h1 h2 h3 h4
  · simp only [Bool.and_eq_true, decide_eq_true_eq] at h1
    exact .inl ⟨k.toNat, by omega, by simp [zeros_toList]⟩
  · simp only [Bool.and_eq_true, decide_eq_true_eq, not_and] at h1 h2
    refine .inr (.inl ⟨(s.length + k).toNat, by omega, by omega, by omega, ?_⟩)
    simp
  · simp only [Bool.and_eq_true, decide_eq_true_eq, not_and] at h1 h2 h3
    refine .inr (.inr (.inl ⟨(-(s.length + k)).toNat, by omega, ?_⟩))
    simp [zeros_toList]
  · simp only [beq_iff_eq, Nat.cast_eq_one] at h4
    refine .inr (.inr (.inr (.inl ⟨h4, ?_⟩)))
    simp [h4, add_sub_cancel_left]
  · refine .inr (.inr (.inr (.inr ?_)))
    simp [add_comm]

section Forms

variable {s : List Char} (hs : IsDigits s)
include hs

/-- Digits, zeros and `.0`. -/
theorem unsignedDecimal_whole (m : Nat) :
    unsignedDecimal (s ++ List.replicate m '0' ++ ['.', '0']) = (digitValue s * 10 ^ m * 10, -1) := by
  have hw : IsDigits (s ++ List.replicate m '0') := hs.append (isDigits_replicate_zero m)
  have hzero : IsDigits ['0'] := isDigits_replicate_zero 1
  rw [List.append_assoc, ← List.append_assoc s, show ['.', '0'] = '.' :: ['0'] from rfl,
    unsignedDecimal_of_no_exponent (no_exponent_point_split hzero hw),
    cutAt_point_split hw]
  simp [digitValue, Nat.ofDigitChars_append, Nat.ofDigitChars_cons]
  ring

/-- The point inside the digits. -/
theorem unsignedDecimal_inner_point (j : Nat) :
    unsignedDecimal (s.take j ++ '.' :: s.drop j) = (digitValue s, -((s.length - j : Nat) : Int)) := by
  have hw : IsDigits (s.take j) := fun c hc => hs c (List.mem_of_mem_take hc)
  have hf : IsDigits (s.drop j) := fun c hc => hs c (List.mem_of_mem_drop hc)
  rw [unsignedDecimal_of_no_exponent (no_exponent_point_split hf hw), cutAt_point_split hw,
    List.take_append_drop, List.length_drop]

/-- `0.`, zeros, then the digits. -/
theorem unsignedDecimal_small (m : Nat) :
    unsignedDecimal (['0'] ++ '.' :: (List.replicate m '0' ++ s)) =
      (digitValue s, -((m + s.length : Nat) : Int)) := by
  have hf : IsDigits (List.replicate m '0' ++ s) := (isDigits_replicate_zero m).append hs
  have hzero : IsDigits ['0'] := isDigits_replicate_zero 1
  rw [unsignedDecimal_of_no_exponent (no_exponent_point_split hf hzero),
    cutAt_point_split hzero]
  simp [digitValue, Nat.ofDigitChars_append, Nat.ofDigitChars_cons]

/-- The digits, then an exponent. -/
theorem unsignedDecimal_digits_exponent (e : Int) :
    unsignedDecimal (s ++ (exponentText e).toList) = (digitValue s, e) := by
  rw [unsignedDecimal_exponentText (fun _ hc => (hs.ne hc).2.1), cutAt_point_digits hs]
  simp

/-- The first digit, the point, the others, then an exponent. -/
theorem unsignedDecimal_scientific (e : Int) :
    unsignedDecimal (s.take 1 ++ '.' :: s.drop 1 ++ (exponentText e).toList) =
      (digitValue s, e - ((s.length - 1 : Nat) : Int)) := by
  have hw : IsDigits (s.take 1) := fun c hc => hs c (List.mem_of_mem_take hc)
  have hf : IsDigits (s.drop 1) := fun c hc => hs c (List.mem_of_mem_drop hc)
  rw [unsignedDecimal_exponentText (no_exponent_point_split hf hw), cutAt_point_split hw,
    List.take_append_drop, List.length_drop]

end Forms

/-- The body reads back as the value of its digits at the exponent it was written for (a
whole number as ten times as many at `-1`). -/
theorem unsignedDecimal_exchangeBody {s : String} (hs : IsDigits s.toList) (hne : s.toList ≠ [])
    (k : Int) :
    ((unsignedDecimal (exchangeBody s k).toList).1 : ℚ) *
        10 ^ (unsignedDecimal (exchangeBody s k).toList).2 = digitValue s.toList * 10 ^ k := by
  have hlen : s.toList.length = s.length := String.length_toList
  have hpos : 0 < s.length := hlen ▸ List.length_pos_iff.2 hne
  rcases exchangeBody_shape s k with ⟨m, rfl, h⟩ | ⟨j, -, hj, rfl, h⟩ | ⟨m, rfl, h⟩ | ⟨-, h⟩ | h <;>
    rw [h]
  · rw [unsignedDecimal_whole hs]
    push_cast
    rw [zpow_neg_one, zpow_natCast]
    field_simp
  · rw [unsignedDecimal_inner_point hs]
    have he : -((s.toList.length - j : Nat) : Int) = (j : Int) - s.length := by omega
    dsimp only
    rw [he]
  · rw [unsignedDecimal_small hs]
    rfl
  · rw [unsignedDecimal_digits_exponent hs]
  · rw [unsignedDecimal_scientific hs]
    have he : k + s.length - 1 - ((s.toList.length - 1 : Nat) : Int) = k := by omega
    dsimp only
    rw [he]

/-- The body starts with a digit. -/
theorem exchangeBody_head {s : String} (hs : IsDigits s.toList) (hne : s.toList ≠ []) (k : Int) :
    ∃ c rest, (exchangeBody s k).toList = c :: rest ∧ c.isDigit = true := by
  obtain ⟨c, r, hcr⟩ := List.exists_cons_of_ne_nil hne
  have hc : c.isDigit = true := hs c (by simp [hcr])
  rcases exchangeBody_shape s k with ⟨m, -, h⟩ | ⟨j, hj, -, -, h⟩ | ⟨m, -, h⟩ | ⟨-, h⟩ | h <;>
    rw [h, hcr]
  · exact ⟨c, _, rfl, hc⟩
  · obtain ⟨j, rfl⟩ := Nat.exists_eq_add_of_lt hj
    exact ⟨c, _, rfl, hc⟩
  · exact ⟨'0', _, rfl, rfl⟩
  · exact ⟨c, _, rfl, hc⟩
  · exact ⟨c, _, rfl, hc⟩

/-- A sign, then a text that starts with a digit, reads as that sign and the text. -/
theorem decimalOfText_sign (neg : Bool) {t : List Char} {c : Char} (hc : c.isDigit = true) :
    decimalOfText ((if neg then "-" else "").toList ++ c :: t) = (neg, unsignedDecimal (c :: t)) := by
  have hne : c ≠ '-' := (IsDigits.ne (t := [c]) (fun _ h => by simp_all) (List.mem_singleton_self c)).2.2.1
  cases neg <;> simp [decimalOfText, hne]

/-- A zero is the zero of its sign. -/
theorem zero_of_isZero {x : Binary64} (h : x.isZero = true) : zero x.negative = x := by
  simp only [isZero, Bool.and_eq_true, beq_iff_eq] at h
  have hx := make_fields x
  rwa [h.1, h.2] at hx


/-! ## The characters of the text -/

/-- The characters a number text is made of: digits, the point, the exponent mark and signs. -/
def isNumberChar (c : Char) : Bool := c.isDigit || c == '.' || c == 'e' || c == '+' || c == '-'

/-- Text made only of number characters. -/
def IsNumberChars (t : List Char) : Prop := ∀ c ∈ t, isNumberChar c = true

@[simp] theorem isNumberChars_append {a b : List Char} :
    IsNumberChars (a ++ b) ↔ IsNumberChars a ∧ IsNumberChars b := List.forall_mem_append

@[simp] theorem isNumberChars_cons {c : Char} {t : List Char} :
    IsNumberChars (c :: t) ↔ isNumberChar c = true ∧ IsNumberChars t := List.forall_mem_cons

@[simp] theorem isNumberChars_nil : IsNumberChars [] := List.forall_mem_nil _

theorem IsDigits.isNumberChars {t : List Char} (h : IsDigits t) : IsNumberChars t :=
  fun c hc => by simp [isNumberChar, h c hc]

theorem IsDigits.take {t : List Char} (h : IsDigits t) (j : Nat) : IsDigits (t.take j) :=
  fun c hc => h c (List.mem_of_mem_take hc)

theorem IsDigits.drop {t : List Char} (h : IsDigits t) (j : Nat) : IsDigits (t.drop j) :=
  fun c hc => h c (List.mem_of_mem_drop hc)

theorem isNumberChars_exponentText (e : Int) : IsNumberChars (exponentText e).toList := by
  rw [exponentText_toList]
  have hsign : isNumberChar (if 0 ≤ e then '+' else '-') = true := by split <;> rfl
  simp [hsign, (isDigits_toDigits _).isNumberChars]
  rfl

theorem isNumberChars_exchangeBody {s : String} (hs : IsDigits s.toList) (k : Int) :
    IsNumberChars (exchangeBody s k).toList := by
  have hpoint : isNumberChar '.' = true := rfl
  have hzero : isNumberChar '0' = true := rfl
  have hzeros (m : Nat) := (isDigits_replicate_zero m).isNumberChars
  have htail : IsNumberChars s.toList.tail := List.drop_one ▸ (hs.drop 1).isNumberChars
  rcases exchangeBody_shape s k with ⟨m, -, h⟩ | ⟨j, -, -, -, h⟩ | ⟨m, -, h⟩ | ⟨-, h⟩ | h <;>
    rw [h] <;>
    simp [hpoint, hzero, hzeros, hs.isNumberChars, (hs.take _).isNumberChars,
      (hs.drop _).isNumberChars, htail, isNumberChars_exponentText]

/-- The body shows a point or an exponent mark. -/
theorem point_or_exponent_mem_exchangeBody (s : String) (k : Int) :
    '.' ∈ (exchangeBody s k).toList ∨ 'e' ∈ (exchangeBody s k).toList := by
  have he (e : Int) : 'e' ∈ (exponentText e).toList := by simp [exponentText_toList]
  rcases exchangeBody_shape s k with ⟨m, -, h⟩ | ⟨j, -, -, -, h⟩ | ⟨m, -, h⟩ | ⟨-, h⟩ | h <;>
    rw [h] <;> simp [he]


theorem isDigits_toString (d : Nat) : IsDigits (toString d).toList :=
  toString_toList d ▸ isDigits_toDigits d

theorem toString_toList_ne_nil (d : Nat) : (toString d).toList ≠ [] :=
  toString_toList d ▸ Nat.toDigits_ne_nil

theorem sign_toList (neg : Bool) :
    (if neg then "-" else "").toList = if neg then ['-'] else [] := by
  cases neg <;> rfl

/-- The text of a double is made of number characters. -/
theorem isNumberChars_exchangeText (x : Binary64) : IsNumberChars x.exchangeText.toList := by
  have hsign : IsNumberChars (if x.negative then ['-'] else []) := by split <;> simp; rfl
  cases hz : x.isZero with
  | true =>
    rw [exchangeText_of_isZero hz, String.toList_append, sign_toList, isNumberChars_append]
    exact ⟨hsign, by simp; decide⟩
  | false =>
    rw [exchangeText_of_ne_zero hz, shortest_eq, String.toList_append, sign_toList,
      isNumberChars_append]
    exact ⟨hsign, isNumberChars_exchangeBody (isDigits_toString _) _⟩

/-- The text of a double shows a point or an exponent mark. -/
theorem point_or_exponent_mem_exchangeText (x : Binary64) :
    '.' ∈ x.exchangeText.toList ∨ 'e' ∈ x.exchangeText.toList := by
  cases hz : x.isZero with
  | true => simp [exchangeText_of_isZero hz]
  | false =>
    rw [exchangeText_of_ne_zero hz, String.toList_append]
    rcases point_or_exponent_mem_exchangeBody x.shortest.1 x.shortest.2 with h | h <;> simp [h]

/-- The text of a double starts with a digit or a minus sign. -/
theorem exchangeText_head (x : Binary64) :
    ∃ c rest, x.exchangeText.toList = c :: rest ∧ (c.isDigit = true ∨ c = '-') := by
  cases hneg : x.negative
  · cases hz : x.isZero with
    | true => exact ⟨'0', ['.', '0'], by simp [exchangeText_of_isZero hz, hneg], .inl rfl⟩
    | false =>
      rw [exchangeText_of_ne_zero hz, shortest_eq]
      obtain ⟨c, rest, h, hc⟩ := exchangeBody_head (isDigits_toString _)
        (toString_toList_ne_nil (shortestOf x.decode.1 x.decode.2 x.lowerHalf).1)
        (shortestOf x.decode.1 x.decode.2 x.lowerHalf).2
      exact ⟨c, rest, by rw [String.toList_append, h, hneg]; rfl, .inl hc⟩
  · cases hz : x.isZero with
    | true => exact ⟨'-', ['0', '.', '0'], by simp [exchangeText_of_isZero hz, hneg], .inr rfl⟩
    | false =>
      refine ⟨'-', (exchangeBody x.shortest.1 x.shortest.2).toList, ?_, .inr rfl⟩
      rw [exchangeText_of_ne_zero hz, String.toList_append, hneg]
      rfl

/-- A finite double is read back from its data-interchange text. -/
theorem readExchange_exchangeText {x : Binary64} (hfin : x.isFinite = true) :
    readExchange x.exchangeText = x := by
  cases hz : x.isZero with
  | true =>
    rw [exchangeText_of_isZero hz, readExchange, String.toList_append,
      show "0.0".toList = '0' :: ['.', '0'] from rfl, decimalOfText_sign _ (by decide : '0'.isDigit = true)]
    simp [unsignedDecimal, cutAt, digitValue, exponentValue, ofDecimal, Nat.ofDigitChars_cons,
      zero_of_isZero hz]
  | false =>
    obtain ⟨hm, hm53, hlh, hq1, hq2⟩ := decode_bounds hfin hz
    have hspec := shortestOf_spec hm hm53 hlh ⟨hq1, hq2⟩
    rw [exchangeText_of_ne_zero hz, shortest_eq]
    generalize shortestOf x.decode.1 x.decode.2 x.lowerHalf = p at hspec ⊢
    obtain ⟨d, k⟩ := p
    obtain ⟨hd, hN, -⟩ := hspec
    have hs := isDigits_toString d
    have hne := toString_toList_ne_nil d
    have hdigits : digitValue (toString d).toList = d := toString_toList d ▸ digitValue_toDigits d
    obtain ⟨c, rest, hbody, hc⟩ := exchangeBody_head hs hne k
    have hval := unsignedDecimal_exchangeBody hs hne k
    rw [hbody, hdigits] at hval
    rw [readExchange, String.toList_append, hbody, decimalOfText_sign _ hc]
    -- the digits read back are not zero, since their value is that of `d · 10^k`
    have hpos : 0 < (unsignedDecimal (c :: rest)).1 := by
      refine Nat.pos_of_ne_zero fun h0 => ?_
      have hnz : (d : ℚ) * 10 ^ k ≠ 0 :=
        mul_ne_zero (by exact_mod_cast hd.ne') (zpow_ne_zero _ (by norm_num))
      rw [h0, Nat.cast_zero, zero_mul] at hval
      exact hnz hval.symm
    exact ofDecimal_of_nearest hfin hz hpos (hval ▸ hN)

/-- Two finite doubles with one data-interchange text are the same double. -/
theorem exchangeText_injective {x y : Binary64} (hx : x.isFinite = true) (hy : y.isFinite = true)
    (h : x.exchangeText = y.exchangeText) : x = y := by
  rw [← readExchange_exchangeText hx, ← readExchange_exchangeText hy, h]

end Binary64
end QueryShield
