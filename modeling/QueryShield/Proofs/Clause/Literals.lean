import Mathlib
import QueryShield.Proofs.Clause.Rejoining
import QueryShield.Proofs.Number.ExchangeText
import QueryShield.Proofs.Guard.Prefilters

/-!
# Literals read back

A bound clause keeps its literals as parameters, and `renderInline` writes each parameter back
as its SQL literal (`Datum.literal`): a text in single quotes with each quote doubled, an integer
in decimal, a double as its plain text.  Bound again, a literal gives a parameter by
`literalValue`.  The parameters that come back as they went out are the `Relexable` ones:

* a text that is no `now`/`current_date` sentinel,
* an integer of 64 signed bits,
* a double whose plain text shows a point.

Each of them is written as a piece the lexer reads on its own (`Relexable.lexable`), and
binding that piece gives the parameter back (`Relexable.literalValue_literal`).  For a double
this is the shortest-digits property of `plainText`: its digits round back to the double.

Every parameter a literal binds to is relexable except a double printed without a point
(`relexable_literalValue`): a sentinel is replaced by the clock's time, which has no letter, and
a number that reads neither as an integer nor as a double stays its own text, which has no
letter either.  A whole double such as `1.0` is printed `1`, and an infinity `inf`: bound again
they are an integer and a name.
-/

namespace QueryShield

open Text Binary64 BoundClause QueryShield.Lex

/-! ## Digits and letters -/

/-- The readers of integers and decimals fold their digits as `digitValue` does. -/
theorem foldl_digits (t : List Char) :
    t.foldl (fun a c => a * 10 + (c.toNat - '0'.toNat)) 0 = digitValue t := by
  rw [digitValue, Nat.ofDigitChars_eq_foldl]
  congr 1
  funext a c
  rw [Nat.mul_comm]

/-- The decimal text of an integer: a minus sign for a negative one, then the digits of its
magnitude. -/
theorem int_toString_toList (n : Int) :
    (toString n).toList = (if n < 0 then ['-'] else []) ++ Nat.toDigits 10 n.natAbs := by
  cases n with
  | ofNat m => simp [toString, Int.repr, Nat.repr, Nat.toDigits]
  | negSucc m => simp [toString, Int.repr, Nat.repr, Int.negSucc_lt_zero]

/-- Text with no ASCII letter. -/
def NoLetters (t : List Char) : Prop := ∀ c ∈ t, c.isAlpha = false

theorem NoLetters.append {a b : List Char} (ha : NoLetters a) (hb : NoLetters b) :
    NoLetters (a ++ b) := by
  intro c hc
  rcases List.mem_append.1 hc with h | h
  · exact ha c h
  · exact hb c h

/-- A character a number is made of is no letter: ASCII letters are not digits, and other
digits are not ASCII. -/
theorem isAlpha_of_number_char {c : Char} (h : c = '-' ∨ c = '.' ∨ isDecimalDigit c = true) :
    c.isAlpha = false := by
  rcases h with rfl | rfl | h
  · decide
  · decide
  · rw [Bool.eq_false_iff]
    intro ha
    have hlt : c.toNat < 128 := by
      rcases Bool.or_eq_true_iff.1 ha with hu | hl
      · exact toNat_lt_of_isUpper hu
      · exact toNat_lt_of_isLower hl
    exact absurd ha (ascii_forall (fun c => isDecimalDigit c = true → c.isAlpha ≠ true)
      (by decide) hlt h)

theorem IsDigits.noLetters {t : List Char} (h : IsDigits t) : NoLetters t :=
  fun _ hc => isAlpha_of_number_char (.inr (.inr (isDecimalDigit_of_isDigit (h _ hc))))

/-! ## Sentinels -/

/-- A text with no letter is no sentinel: every sentinel word starts with a letter. -/
theorem sentinel_eq_none {clock : Stamp} {s : String} (h : NoLetters s.toList) :
    Stamp.sentinel clock s = none := by
  have hw : ∀ k : String, asciiLower (trim s) = k → NoLetters k.toList := by
    rintro k rfl c hc
    rw [asciiLower, String.toList_map, trim, String.toList_ofList, List.mem_map] at hc
    obtain ⟨d, hd, rfl⟩ := hc
    have hdα := h d (trimChars_subset _ hd)
    rwa [Char.toLower_eq_of_not_isUpper (by simp_all [Char.isAlpha])]
  unfold Stamp.sentinel
  dsimp only
  split_ifs with h1 h2
  · simp only [Bool.or_eq_true, beq_iff_eq] at h1
    rcases h1 with h1 | h1 <;> exact absurd (hw _ h1 'n' (by simp)) (by decide)
  · simp only [Bool.or_eq_true, beq_iff_eq] at h2
    rcases h2 with h2 | h2 <;> exact absurd (hw _ h2 'c' (by simp)) (by decide)
  · rfl

theorem noLetters_padded (w n : Nat) : NoLetters (Stamp.padded w n).toList := by
  rw [Stamp.padded, String.toList_append, String.toList_ofList]
  exact IsDigits.noLetters ((isDigits_replicate_zero _).append (isDigits_toString n))

theorem noLetters_dateText (s : Stamp) : NoLetters s.dateText.toList := by
  have hdash : NoLetters "-".toList := by simp [NoLetters]
  have hyear : NoLetters (Stamp.yearText s.year).toList := by
    unfold Stamp.yearText
    split
    · exact noLetters_padded _ _
    · rw [String.toList_append]
      refine NoLetters.append ?_ (noLetters_padded _ _)
      split <;> simp [NoLetters]
  simp only [Stamp.dateText, String.toList_append]
  exact (((hyear.append hdash).append (noLetters_padded _ _)).append hdash).append
    (noLetters_padded _ _)

theorem noLetters_text (s : Stamp) : NoLetters s.text.toList := by
  have hsep : ∀ t : String, t = " " ∨ t = ":" → NoLetters t.toList := by
    rintro t (rfl | rfl) <;> simp [NoLetters]
  simp only [Stamp.text, String.toList_append]
  exact (((((((noLetters_dateText s).append (hsep _ (.inl rfl))).append
    (noLetters_padded _ _)).append (hsep _ (.inr rfl))).append (noLetters_padded _ _)).append
    (hsep _ (.inr rfl))).append (noLetters_padded _ _))

/-- A sentinel's replacement is no sentinel: replacing sentinels twice is replacing them
once. -/
theorem sentinel_getD (clock : Stamp) (s : String) :
    Stamp.sentinel clock ((Stamp.sentinel clock s).getD s) = none := by
  cases h : Stamp.sentinel clock s with
  | none => simpa using h
  | some t =>
    have ht : t = clock.text ∨ t = clock.dateText := by
      unfold Stamp.sentinel at h
      dsimp only at h
      split_ifs at h <;> cases h
      · exact .inl rfl
      · exact .inr rfl
    rcases ht with rfl | rfl
    · exact sentinel_eq_none (noLetters_text clock)
    · exact sentinel_eq_none (noLetters_dateText clock)

/-! ## Integers -/

/-- An integer that is read lies in the 64-bit range. -/
theorem parseInt64?_bounds {s : String} {n : Int} (h : Datum.parseInt64? s = some n) :
    -(Nat.pow 2 63 : Int) ≤ n ∧ n < Nat.pow 2 63 := by
  unfold Datum.parseInt64? at h
  split at h
  dsimp only at h
  split_ifs at h with hempty hneg hrange hrange <;>
    simp only [Option.some.injEq] at h <;>
    subst h <;>
    simp only [Bool.or_eq_true, decide_eq_true_eq, not_or, not_lt, ge_iff_le] at hrange <;>
    omega

/-- An integer of the 64-bit range is read back from its decimal text. -/
theorem parseInt64?_toString {n : Int} (h1 : -(Nat.pow 2 63 : Int) ≤ n) (h2 : n < Nat.pow 2 63) :
    Datum.parseInt64? (toString n) = some n := by
  have hd := isDigits_toDigits n.natAbs
  obtain ⟨d, ds, hds⟩ := List.exists_cons_of_ne_nil (Nat.toDigits_ne_nil (n := n.natAbs) (b := 10))
  have hvalue : digitValue (d :: ds) = n.natAbs := hds ▸ digitValue_toDigits n.natAbs
  have hall : (d :: ds).all Char.isDigit = true := List.all_eq_true.2 fun c hc => hd c (hds ▸ hc)
  have hd' := IsDigits.ne (t := d :: ds) (hds ▸ hd) List.mem_cons_self
  have hrange : ∀ v : Int, -(Nat.pow 2 63 : Int) ≤ v → v < Nat.pow 2 63 →
      (if (decide (v < -(Nat.pow 2 63 : Int)) || decide (v ≥ (Nat.pow 2 63 : Int))) = true then none
        else some v) = some v := by
    intro v hv1 hv2
    rw [if_neg (by simp only [Bool.or_eq_true, decide_eq_true_eq, not_or, not_lt, ge_iff_le]; omega)]
  unfold Datum.parseInt64?
  rw [int_toString_toList, hds]
  by_cases hneg : n < 0
  · simp only [hneg, if_true, List.cons_append, List.nil_append, List.isEmpty_cons, hall,
      Bool.not_true, Bool.or_false, Bool.false_eq_true, if_false, foldl_digits, hvalue]
    have hv : -((n.natAbs : Nat) : Int) = n := by omega
    rw [hv, hrange n h1 h2]
  · simp only [hneg, if_false, List.nil_append]
    split
    · rename_i r hr
      exact absurd (List.cons.inj hr).1 hd'.2.2.1
    · rename_i r hr
      exact absurd (List.cons.inj hr).1 hd'.2.2.2
    · simp only [List.isEmpty_cons, hall, Bool.not_true, Bool.or_false, Bool.false_eq_true,
        if_false, foldl_digits, hvalue]
      have hv : ((n.natAbs : Nat) : Int) = n := by omega
      rw [hv, hrange n h1 h2]

theorem isNumberText_toString (n : Int) : IsNumberText (toString n).toList := by
  refine ⟨if n < 0 then ['-'] else [], Nat.toDigits 10 n.natAbs, [], ?_, ?_, Nat.toDigits_ne_nil,
    isDigits_toDigits _, .inl rfl⟩
  · rw [int_toString_toList, List.append_nil]
  · split
    · exact .inr rfl
    · exact .inl rfl

/-! ## Doubles -/

/-- A decimal with a point, its sign written as a minus: the reader takes the digits around the
point and scales them by the length of the fraction. -/
theorem decimalOf?_point (neg : Bool) {w f : List Char} (hw : IsDigits w) (hf : IsDigits f)
    (hwne : w ≠ []) (hfne : f ≠ []) :
    literalValue.decimalOf? (String.ofList ((if neg then ['-'] else []) ++ w ++ '.' :: f)) =
      some (ofDecimal neg (digitValue (w ++ f)) (-(f.length : Int))) := by
  obtain ⟨d, w', rfl⟩ := List.exists_cons_of_ne_nil hwne
  have hd : d ≠ '-' := (hw.ne (List.mem_cons_self)).2.2.1
  have hwhole : (d :: w' ++ '.' :: f).takeWhile (· != '.') = d :: w' :=
    congrArg Prod.fst (cutAt_point_split hw f)
  have hfrac : (d :: w' ++ '.' :: f).drop ((d :: w').length + 1) = f := by simp
  have hall : (d :: w' ++ f).all Char.isDigit = true :=
    List.all_eq_true.2 fun c hc => hw.append hf c hc
  have hfne' : f.isEmpty = false := by simpa using hfne
  unfold literalValue.decimalOf?
  cases neg
  · simp only [Bool.false_eq_true, if_false, List.nil_append, String.toList_ofList,
      List.cons_append]
    split
    · rename_i r hr
      exact absurd (List.cons.inj hr).1 hd
    · rw [← List.cons_append, hwhole, hfrac]
      simp only [List.isEmpty_cons, hfne', hall, Bool.not_true, Bool.or_false, Bool.false_eq_true,
        if_false, foldl_digits]
      rfl
  · simp only [if_true, List.cons_append, List.nil_append, String.toList_ofList]
    rw [← List.cons_append, hwhole, hfrac]
    simp only [List.isEmpty_cons, hfne', hall, Bool.not_true, Bool.or_false, Bool.false_eq_true,
      if_false, foldl_digits]
    rfl

/-- Where the point stands in positional digits that show one: before them, after `0.` and
zeros, or inside them. -/
theorem positional_point {s : String} (hs : IsDigits s.toList) {k : Int}
    (h : '.' ∈ (positional s k).toList) :
    (∃ m : Nat, k = -((m + s.length : Nat) : Int) ∧
      (positional s k).toList = ['0'] ++ '.' :: (List.replicate m '0' ++ s.toList)) ∨
    (∃ j : Nat, 0 < j ∧ j < s.length ∧ k = (j : Int) - s.length ∧
      (positional s k).toList = s.toList.take j ++ '.' :: s.toList.drop j) := by
  simp only [positional] at h ⊢
  split_ifs at h ⊢ with h1 h2
  · exact .inl ⟨(-((s.length : Int) + k)).toNat, by omega, by simp [zeros_toList]⟩
  · exact .inr ⟨((s.length : Int) + k).toNat, by omega, by omega, by omega, by simp⟩
  · -- a whole number: digits and zeros, no point
    rw [String.toList_append, zeros_toList] at h
    exact absurd ((hs.append (isDigits_replicate_zero _)) '.' h) (by decide)

/-- A plain text with a point is that of a finite value that is no zero: its sign, then digits
around the point whose decimal value is the value's shortest digits. -/
theorem plainText_point {x : Binary64} (h : '.' ∈ x.plainText.toList) :
    ∃ w f : List Char, IsDigits w ∧ IsDigits f ∧ w ≠ [] ∧ f ≠ [] ∧
      x.plainText.toList = (if x.negative then ['-'] else []) ++ w ++ '.' :: f ∧
      ofDecimal x.negative (digitValue (w ++ f)) (-(f.length : Int)) = x := by
  -- the special values show no point
  have hsign : ∀ t : String, '.' ∉ t.toList →
      '.' ∉ ((if x.negative then "-" else "") ++ t).toList := by
    intro t ht
    split <;> simpa using ht
  have hnan : x.isNaN = false := by
    rw [Bool.eq_false_iff]
    intro hn
    simp [plainText, hn] at h
  have hinf : x.isInfinite = false := by
    rw [Bool.eq_false_iff]
    intro hi
    simp only [plainText, hnan, hi, Bool.false_eq_true, if_false, if_true] at h
    exact hsign "inf" (by simp) h
  have hz : x.isZero = false := by
    rw [Bool.eq_false_iff]
    intro hz
    simp only [plainText, hnan, hinf, hz, Bool.false_eq_true, if_false, if_true] at h
    exact hsign "0" (by simp) h
  have hfin : x.isFinite = true := by
    simp only [isFinite, isNaN, isInfinite, Bool.and_eq_false_iff, bne_iff_ne, ne_eq] at hnan hinf ⊢
    intro he
    simp only [he, beq_self_eq_true, Bool.true_eq_false, false_or] at hnan hinf
    simp_all
  have htext : x.plainText.toList = (if x.negative then ['-'] else []) ++
      (positional (toString (shortestOf x.decode.1 x.decode.2 x.lowerHalf).1)
        (shortestOf x.decode.1 x.decode.2 x.lowerHalf).2).toList := by
    simp only [plainText, hnan, hinf, hz, Bool.false_eq_true, if_false, shortest_eq,
      String.toList_append, sign_toList]
  have hback := ofDecimal_shortestOf hfin hz
  generalize shortestOf x.decode.1 x.decode.2 x.lowerHalf = p at htext hback
  obtain ⟨d, k⟩ := p
  have hs := isDigits_toString d
  have hdigits : digitValue (toString d).toList = d := toString_toList d ▸ digitValue_toDigits d
  have hlen : (toString d).toList.length = (toString d).length := String.length_toList
  have hpt : '.' ∈ (positional (toString d) k).toList := by
    rw [htext] at h
    rcases List.mem_append.1 h with h | h
    · split at h <;> simp at h
    · exact h
  rcases positional_point hs hpt with ⟨m, hk, hpos⟩ | ⟨j, hj0, hjn, hk, hpos⟩
  · -- `0.`, zeros, then the digits
    refine ⟨['0'], List.replicate m '0' ++ (toString d).toList, isDigits_replicate_zero 1,
      (isDigits_replicate_zero m).append hs, by simp, by simp, ?_, ?_⟩
    · rw [htext, hpos]
      simp
    · have hval : digitValue (['0'] ++ (List.replicate m '0' ++ (toString d).toList)) = d :=
        calc digitValue (['0'] ++ (List.replicate m '0' ++ (toString d).toList))
            = digitValue (toString d).toList := by
              simp [digitValue, Nat.ofDigitChars_append, Nat.ofDigitChars_cons]
          _ = d := hdigits
      rw [hval]
      convert hback using 2
      simp only [List.length_append, List.length_replicate, hlen, hk]
  · -- the point inside the digits
    refine ⟨(toString d).toList.take j, (toString d).toList.drop j,
      fun c hc => hs c (List.mem_of_mem_take hc), fun c hc => hs c (List.mem_of_mem_drop hc),
      by simp only [ne_eq, List.take_eq_nil_iff, not_or]; exact ⟨by omega, toString_toList_ne_nil d⟩,
      by simp only [ne_eq, List.drop_eq_nil_iff, not_le]; omega, ?_, ?_⟩
    · rw [htext, hpos, List.append_assoc]
    · rw [List.take_append_drop, hdigits]
      convert hback using 2
      simp only [List.length_drop, hlen, hk]
      omega

theorem decimalOf?_plainText {x : Binary64} (h : '.' ∈ x.plainText.toList) :
    literalValue.decimalOf? x.plainText = some x := by
  obtain ⟨w, f, hw, hf, hwne, hfne, htext, hval⟩ := plainText_point h
  rw [← String.ofList_toList (s := x.plainText), htext, decimalOf?_point _ hw hf hwne hfne, hval]

theorem isNumberText_plainText {x : Binary64} (h : '.' ∈ x.plainText.toList) :
    IsNumberText x.plainText.toList := by
  obtain ⟨w, f, hw, hf, hwne, hfne, htext, -⟩ := plainText_point h
  refine ⟨_, w, '.' :: f, htext, ?_, hwne, hw, .inr ⟨f, rfl, hfne, hf⟩⟩
  split
  · exact .inr rfl
  · exact .inl rfl

theorem not_mem_point_toString (n : Int) : '.' ∉ (toString n).toList := by
  rw [int_toString_toList]
  intro h
  rcases List.mem_append.1 h with h | h
  · split at h <;> simp at h
  · exact absurd (isDigits_toDigits _ '.' h) (by decide)

/-! ## Parameters that their literals give back -/

/-- A lexeme whose text starts with no quote is no quoted string. -/
theorem isQuoted_eq_false {l : Lexeme} (h : ∀ c ∈ l.text.toList.head?, c ≠ '\'' ∧ c ≠ '"') :
    l.isQuoted = false := by
  have h1 : l.text.startsWith "'" = false := by
    rw [Bool.eq_false_iff]
    intro hs
    obtain ⟨r, hr⟩ := String.startsWith_string_iff.1 hs
    exact (h '\'' (by rw [← hr]; simp)).1 rfl
  have h2 : l.text.startsWith "\"" = false := by
    rw [Bool.eq_false_iff]
    intro hs
    obtain ⟨r, hr⟩ := String.startsWith_string_iff.1 hs
    exact (h '"' (by rw [← hr]; simp)).2 rfl
  simp [Lexeme.isQuoted, h1, h2]

theorem isQuoted_number {t : String} (ht : IsNumberText t.toList) :
    Lexeme.isQuoted ⟨t, .literal⟩ = false := by
  obtain ⟨c, w, hw, -, hq1, hq2, -⟩ := ht.head
  exact isQuoted_eq_false fun d hd => by
    simp only [hw, List.head?_cons, Option.mem_def, Option.some.injEq] at hd
    exact hd ▸ ⟨hq1, hq2⟩

namespace Datum

variable {clock : Stamp}

/-- A parameter that its SQL literal gives back when bound again: a text that is no sentinel,
an integer of 64 signed bits, or a double whose plain text shows a point. -/
inductive Relexable (clock : Stamp) : Datum → Prop
  | text {s : String} : Stamp.sentinel clock s = none → Relexable clock (.text s)
  | int {n : Int} : -(Nat.pow 2 63 : Int) ≤ n → n < Nat.pow 2 63 → Relexable clock (.int n)
  | float {x : Binary64} : '.' ∈ x.plainText.toList → Relexable clock (.float x)

/-- The literal of a relexable parameter is a piece the lexer reads on its own. -/
theorem Relexable.lexable {v : Datum} (hv : Relexable clock v) : Lexable (v.literal, .literal) := by
  cases hv with
  | text _ => exact .quoted _
  | int _ _ => exact .number (isNumberText_toString _)
  | float h => exact .number (isNumberText_plainText h)

/-- Binding the literal of a relexable parameter gives the parameter back. -/
theorem Relexable.literalValue_literal {v : Datum} (hv : Relexable clock v) :
    literalValue clock ⟨v.literal, .literal⟩ = v := by
  cases hv with
  | @text s hs =>
    have hq : Lexeme.isQuoted ⟨quoteText s, .literal⟩ = true :=
      isQuoted_of_head rfl (.inl rfl) (by simp [quoteText_toList])
    simp only [literal, literalValue, hq, if_true, unquoted_quoteText, hs, Option.getD_none]
  | @int n h1 h2 =>
    have hdot : (toString n).toList.contains '.' = false := by
      simpa using not_mem_point_toString n
    simp only [literal, literalValue, isQuoted_number (isNumberText_toString n), hdot,
      Bool.false_eq_true, if_false, parseInt64?_toString h1 h2]
  | @float x h =>
    have hdot : x.plainText.toList.contains '.' = true := by simpa using h
    simp only [literal, literalValue, isQuoted_number (isNumberText_plainText h), hdot,
      Bool.false_eq_true, if_false, if_true, decimalOf?_plainText h]

end Datum

/-- What a literal binds to is relexable, unless it is a double printed without a point: a
quoted string gives its content or the clock's time, a number a double, an integer, or its own
text, which has no letter. -/
theorem relexable_literalValue {clock : Stamp} {l : Lexeme}
    (hl : l.isQuoted = true ∨ ∀ c ∈ l.text.toList, c = '-' ∨ c = '.' ∨ isDecimalDigit c = true)
    (hfloat : ∀ x, literalValue clock l = .float x → '.' ∈ x.plainText.toList) :
    Datum.Relexable clock (literalValue clock l) := by
  unfold literalValue at hfloat ⊢
  split_ifs at hfloat ⊢ with hq hdot
  · exact .text (sentinel_getD clock _)
  all_goals
    have hnum : NoLetters l.text.toList := fun c hc =>
      isAlpha_of_number_char ((hl.resolve_left hq) c hc)
  · cases hx : literalValue.decimalOf? l.text with
    | none => exact .text (sentinel_eq_none hnum)
    | some x =>
      simp only [hx] at hfloat ⊢
      exact .float (hfloat x rfl)
  · cases hn : Datum.parseInt64? l.text with
    | none => exact .text (sentinel_eq_none hnum)
    | some n =>
      obtain ⟨h1, h2⟩ := parseInt64?_bounds hn
      exact .int h1 h2

end QueryShield
