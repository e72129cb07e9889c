import Mathlib
import QueryShield.Proofs.Clause.Literals

/-!
# Numbers of a clause and the parameters they bind

The lexer reads a number as an optional minus, decimal digits and optionally a point followed by
more digits, where a decimal digit is a digit of any script (`isDecimalDigit`: the Arabic-Indic
`٥` as well as `5`).  Binding then reads the number with readers of ASCII digits only: one with a
point as the double nearest the decimal, one without as an integer of 64 signed bits; what a
reader refuses is bound as its own text.

The main result, `literalValue_lexedNumber`, says how every number of every fragment the lexer
accepts is bound:

* with ASCII digits and a point, as a double (`BoundClause.literalValue_of_point`);
* with ASCII digits and no point, as the integer it writes while that fits in 64 signed bits,
  and as its text beyond (`BoundClause.literalValue_of_no_point`);
* with a digit of another script, as its text (`BoundClause.literalValue_of_wide`): the text
  fallback after the reader of decimals is reached, for `a=1.٥` among others
  (`BoundClause.ofText_arabic_indic_fraction`).

It rests on the shape of what the lexer reads as a number (`Lex.numberLength_isNumeral`,
`Lexeme.lex_numeral`): a string starts with its quote, so a literal that is no quoted string
came from the number form.
-/

namespace QueryShield

open Text Binary64 BoundClause QueryShield.Lex

namespace Lex

/-! ## What the lexer reads as a number -/

/-- The shape of a number the lexer reads: an optional minus, decimal digits of any script, and
optionally a point followed by more of them. -/
def IsNumeral (w : List Char) : Prop :=
  ∃ sign ds frac : List Char, w = sign ++ ds ++ frac ∧ (sign = [] ∨ sign = ['-']) ∧ ds ≠ [] ∧
    (∀ c ∈ ds, isDecimalDigit c = true) ∧
    (frac = [] ∨ ∃ fs, frac = '.' :: fs ∧ fs ≠ [] ∧ ∀ c ∈ fs, isDecimalDigit c = true)

theorem takeWhile_eq_take (p : Char → Bool) (u : List Char) :
    u.takeWhile p = u.take (u.takeWhile p).length :=
  List.prefix_iff_eq_take.1 (List.takeWhile_prefix _)

/-- A number the lexer finds has the shape of a numeral. -/
theorem numberLength_isNumeral {t : List Char} {m : Nat} (h : numberLength t = some m) :
    IsNumeral (t.take m) := by
  unfold numberLength at h
  split at h
  rename_i s u heq
  dsimp only at h
  split at h
  · cases h
  · rename_i hds
    simp only [Option.some.injEq] at h
    -- the sign comes first, then what follows it
    obtain ⟨sgn, rfl, rfl, hsgn⟩ :
        ∃ sgn, t = sgn ++ u ∧ s = sgn.length ∧ (sgn = [] ∨ sgn = ['-']) := by
      split at heq <;> simp only [Prod.mk.injEq] at heq <;> obtain ⟨rfl, rfl⟩ := heq
      · exact ⟨['-'], rfl, rfl, .inr rfl⟩
      · exact ⟨[], rfl, rfl, .inl rfl⟩
    -- after the digits: a point with more digits, or nothing
    obtain ⟨frac, hm, htake, hfrac⟩ : ∃ frac : List Char,
        m = sgn.length + (u.takeWhile isDecimalDigit).length + frac.length ∧
        (u.drop (u.takeWhile isDecimalDigit).length).take frac.length = frac ∧
        (frac = [] ∨ ∃ fs, frac = '.' :: fs ∧ fs ≠ [] ∧ ∀ c ∈ fs, isDecimalDigit c = true) := by
      split at h
      · rename_i r hr
        split_ifs at h with hfs
        · exact ⟨[], by simpa using h.symm, by simp, .inl rfl⟩
        · refine ⟨'.' :: r.takeWhile isDecimalDigit, by simp [← h], ?_, ?_⟩
          · rw [hr, List.length_cons, List.take_succ_cons, ← takeWhile_eq_take]
          · exact .inr ⟨_, rfl, by simpa using hfs, fun c hc => List.mem_takeWhile_imp hc⟩
      · exact ⟨[], by simpa using h.symm, by simp, .inl rfl⟩
    refine ⟨sgn, u.takeWhile isDecimalDigit, frac, ?_, hsgn, by simpa using hds,
      fun c hc => List.mem_takeWhile_imp hc, hfrac⟩
    rw [hm, Nat.add_assoc, List.take_length_add_append, List.take_add, ← takeWhile_eq_take, htake,
      List.append_assoc]

/-- A literal that starts a text and is no quoted string is a numeral. -/
theorem lexemeAt_numeral_shape {prev : Option Char} {t : List Char} {l : Lexeme} {n : Nat}
    (h : lexemeAt prev t = some (l, n)) (hk : l.kind = .literal) (hq : l.isQuoted = false) :
    IsNumeral l.text.toList := by
  -- a string starts with its quote, so only the number form is left
  have hquoted : ∀ q m, (q = '\'' ∨ q = '"') → quotedLength q t = some m →
      Lexeme.isQuoted ⟨String.ofList (t.take m), .literal⟩ = true := by
    intro q m hq' hm
    obtain ⟨r, rfl, hm1⟩ := quotedLength_head hm
    obtain ⟨k, rfl⟩ : ∃ k, m = k + 1 := ⟨m - 1, by omega⟩
    exact isQuoted_of_head rfl hq' (by simp)
  unfold lexemeAt at h
  split at h
  · rename_i m hm
    cases h
    exact absurd (hquoted _ _ (.inl rfl) hm) (by simp [hq])
  · split at h
    · rename_i m hm
      cases h
      exact absurd (hquoted _ _ (.inr rfl) hm) (by simp [hq])
    · split at h
      · cases h; cases hk
      · split at h
        · split at h
          · cases h; cases hk
          · split at h
            · cases h; cases hk
            · split at h
              · dsimp only at h
                split at h <;> cases h <;> cases hk
              · split at h
                · rename_i m hm
                  cases h
                  simpa using numberLength_isNumeral hm
                · cases h
        · cases h

theorem isDigit_of_isDecimalDigit {c : Char} (h : isDecimalDigit c = true) (hc : c.toNat < 128) :
    c.isDigit = true := by
  simpa [isDecimalDigit, show c.toNat < 0x80 from hc] using h

/-- A numeral written in ASCII is a number text: its decimal digits are ASCII digits. -/
theorem IsNumeral.isNumberText {w : List Char} (h : IsNumeral w) (hascii : ∀ c ∈ w, c.toNat < 128) :
    IsNumberText w := by
  obtain ⟨sign, ds, frac, rfl, hsign, hne, hds, hfrac⟩ := h
  refine ⟨sign, ds, frac, rfl, hsign, hne,
    fun c hc => isDigit_of_isDecimalDigit (hds c hc) (hascii c (by simp [hc])), ?_⟩
  rcases hfrac with rfl | ⟨fs, rfl, hfs, hfsd⟩
  · exact .inl rfl
  · exact .inr ⟨fs, rfl, hfs,
      fun c hc => isDigit_of_isDecimalDigit (hfsd c hc) (hascii c (by simp [hc]))⟩

/-- The integer a numeral without a point writes: its digits' value, negated after a minus. -/
def numeralValue (w : List Char) : Int :=
  if w.head? = some '-' then -(digitValue (w.drop 1) : Int) else digitValue w

end Lex

/-- Every literal of a fragment that is no quoted string is a numeral. -/
theorem Lexeme.lex_numeral {fragment : String} {ls : List Lexeme} (h : Lexeme.lex fragment = .ok ls)
    {l : Lexeme} (hl : l ∈ ls) (hk : l.kind = .literal) (hq : l.isQuoted = false) :
    Lex.IsNumeral l.text.toList :=
  Lex.go_forall (P := fun l => l.kind = .literal → l.isQuoted = false → Lex.IsNumeral l.text.toList)
    (fun _ _ _ _ h => Lex.lexemeAt_numeral_shape h) h l hl hk hq

namespace BoundClause

/-! ## The readers of numbers -/

/-- Cutting a text at its first point keeps every other character. -/
theorem mem_cut_point {cs : List Char} {c : Char} (hc : c ∈ cs) (hd : c ≠ '.') :
    c ∈ cs.takeWhile (· != '.') ++ cs.drop ((cs.takeWhile (· != '.')).length + 1) := by
  induction cs with
  | nil => cases hc
  | cons e cs ih =>
    by_cases he : e = '.'
    · subst he
      simpa using (List.mem_cons.1 hc).resolve_left hd
    · have hne : (e != '.') = true := by simpa using he
      rw [List.takeWhile_cons_of_pos (p := fun x => x != '.') hne, List.length_cons,
        List.drop_succ_cons]
      rcases List.mem_cons.1 hc with rfl | hc
      · exact List.mem_append_left _ List.mem_cons_self
      · rcases List.mem_append.1 (ih hc) with h | h
        · exact List.mem_append_left _ (List.mem_cons_of_mem _ h)
        · exact List.mem_append_right _ h

/-- A character that is no ASCII digit, no sign and no point stops the reader of decimals. -/
theorem decimalOf?_eq_none {s : String} {c : Char} (hc : c ∈ s.toList) (hm : c ≠ '-')
    (hd : c ≠ '.') (hdig : c.isDigit = false) : literalValue.decimalOf? s = none := by
  unfold literalValue.decimalOf?
  split
  rename_i neg cs heq
  have hcs : c ∈ cs := by
    split at heq <;> simp only [Prod.mk.injEq] at heq <;> obtain ⟨rfl, rfl⟩ := heq
    · rename_i r hr
      rw [hr] at hc
      exact (List.mem_cons.1 hc).resolve_left hm
    · exact hc
  -- the reader drops the first point only, so `c` is among the digits it checks
  have hmem := mem_cut_point hcs hd
  have hall : (cs.takeWhile (· != '.') ++ cs.drop ((cs.takeWhile (· != '.')).length + 1)).all
      Char.isDigit = false := by
    rw [List.all_eq_false]
    exact ⟨c, hmem, by simp [hdig]⟩
  simp [hall]

/-- A character that is no ASCII digit and no sign stops the reader of integers. -/
theorem parseInt64?_eq_none {s : String} {c : Char} (hc : c ∈ s.toList) (hm : c ≠ '-')
    (hp : c ≠ '+') (hdig : c.isDigit = false) : Datum.parseInt64? s = none := by
  unfold Datum.parseInt64?
  split
  rename_i neg digits heq
  have hdigits : c ∈ digits := by
    split at heq <;> simp only [Prod.mk.injEq] at heq <;> obtain ⟨rfl, rfl⟩ := heq
    · rename_i r hr
      rw [hr] at hc
      exact (List.mem_cons.1 hc).resolve_left hm
    · rename_i r hr
      rw [hr] at hc
      exact (List.mem_cons.1 hc).resolve_left hp
    · exact hc
  have hall : digits.all Char.isDigit = false := by
    rw [List.all_eq_false]
    exact ⟨c, hdigits, by simp [hdig]⟩
  simp [hall]

/-- ASCII digits after an optional minus are read as the integer they write, when it fits in
64 signed bits. -/
theorem parseInt64?_numeral {w : List Char} (hw : Lex.IsNumberText w) (hdot : '.' ∉ w) :
    Datum.parseInt64? (String.ofList w) =
      if -(Nat.pow 2 63 : Int) ≤ numeralValue w ∧ numeralValue w < Nat.pow 2 63 then
        some (numeralValue w) else none := by
  obtain ⟨sign, ds, frac, rfl, hsign, hne, hds, hfrac⟩ := hw
  have hfrac0 : frac = [] := by
    rcases hfrac with h | ⟨fs, rfl, -, -⟩
    · exact h
    · exact absurd (by simp) hdot
  subst hfrac0
  obtain ⟨d, ds', rfl⟩ := List.exists_cons_of_ne_nil hne
  have hd := IsDigits.ne (t := d :: ds') hds List.mem_cons_self
  have hall : (d :: ds').all Char.isDigit = true := List.all_eq_true.2 hds
  have hrange : ∀ v : Int,
      (if (decide (v < -(Nat.pow 2 63 : Int)) || decide (v ≥ (Nat.pow 2 63 : Int))) = true then none
        else some v) =
      if -(Nat.pow 2 63 : Int) ≤ v ∧ v < Nat.pow 2 63 then some v else none := by
    intro v
    by_cases h : -(Nat.pow 2 63 : Int) ≤ v ∧ v < Nat.pow 2 63
    · have hc : (decide (v < -(Nat.pow 2 63 : Int)) || decide (v ≥ (Nat.pow 2 63 : Int))) = false := by
        simp only [Bool.or_eq_false_iff, decide_eq_false_iff_not, not_lt, ge_iff_le]
        omega
      rw [if_pos h, hc, if_neg Bool.false_ne_true]
    · have hc : (decide (v < -(Nat.pow 2 63 : Int)) || decide (v ≥ (Nat.pow 2 63 : Int))) = true := by
        simp only [Bool.or_eq_true, decide_eq_true_eq, ge_iff_le]
        omega
      rw [if_neg h, hc, if_pos rfl]
  unfold Datum.parseInt64?
  rcases hsign with rfl | rfl
  · simp only [List.nil_append, List.append_nil, String.toList_ofList]
    split
    · rename_i r hr
      exact absurd (List.cons.inj hr).1 hd.2.2.1
    · rename_i r hr
      exact absurd (List.cons.inj hr).1 hd.2.2.2
    · simp only [List.isEmpty_cons, hall, Bool.not_true, Bool.or_false, Bool.false_eq_true,
        if_false, foldl_digits, Bool.false_eq_true, hrange]
      simp [numeralValue, hd.2.2.1]
  · simp only [List.cons_append, List.nil_append, List.append_nil, String.toList_ofList,
      List.isEmpty_cons, hall, Bool.not_true, Bool.or_false, Bool.false_eq_true, if_false,
      foldl_digits, if_true, hrange]
    simp [numeralValue]

/-! ## Binding a number -/

variable {clock : Stamp} {l : Lexeme}

/-- A number holding a character beyond ASCII is bound as its own text: neither reader takes it. -/
theorem literalValue_of_wide (hq : l.isQuoted = false) {c : Char} (hc : c ∈ l.text.toList)
    (hwide : 128 ≤ c.toNat) : literalValue clock l = .text l.text := by
  have hm : c ≠ '-' := by rintro rfl; exact absurd hwide (by decide)
  have hp : c ≠ '+' := by rintro rfl; exact absurd hwide (by decide)
  have hd : c ≠ '.' := by rintro rfl; exact absurd hwide (by decide)
  have hdig : c.isDigit = false := by
    rw [Bool.eq_false_iff]
    intro h
    have := Lex.toNat_lt_of_isDigit h
    omega
  unfold literalValue
  simp only [hq, Bool.false_eq_true, if_false]
  split
  · rw [decimalOf?_eq_none hc hm hd hdig]
  · rw [parseInt64?_eq_none hc hm hp hdig]

/-- A number text with a point is bound as a double. -/
theorem literalValue_of_point (hq : l.isQuoted = false) (hw : Lex.IsNumberText l.text.toList)
    (hdot : '.' ∈ l.text.toList) : ∃ x, literalValue clock l = .float x := by
  obtain ⟨sign, ds, frac, hl, hsign, hne, hds, hfrac⟩ := hw
  rcases hfrac with rfl | ⟨fs, rfl, hfs, hfsd⟩
  · -- a point can only stand in the fraction
    rw [hl, List.append_nil] at hdot
    rcases List.mem_append.1 hdot with h | h
    · rcases hsign with rfl | rfl <;> simp at h
    · exact absurd rfl (IsDigits.ne hds h).1
  · have hdot' : l.text.toList.contains '.' = true := by simpa using hdot
    obtain ⟨neg, hneg⟩ : ∃ neg : Bool, sign = if neg then ['-'] else [] := by
      rcases hsign with rfl | rfl
      · exact ⟨false, rfl⟩
      · exact ⟨true, rfl⟩
    have htext : l.text = String.ofList ((if neg then ['-'] else []) ++ ds ++ '.' :: fs) := by
      rw [← hneg, ← hl, String.ofList_toList]
    refine ⟨ofDecimal neg (digitValue (ds ++ fs)) (-(fs.length : Int)), ?_⟩
    unfold literalValue
    simp only [hq, Bool.false_eq_true, if_false, hdot', if_true]
    rw [htext, decimalOf?_point neg hds hfsd hne hfs]

/-- A number text without a point is bound as the integer it writes when that fits in 64 signed
bits, and as its text otherwise. -/
theorem literalValue_of_no_point (hq : l.isQuoted = false) (hw : Lex.IsNumberText l.text.toList)
    (hdot : '.' ∉ l.text.toList) :
    literalValue clock l =
      if -(Nat.pow 2 63 : Int) ≤ numeralValue l.text.toList ∧
          numeralValue l.text.toList < Nat.pow 2 63 then
        .int (numeralValue l.text.toList) else .text l.text := by
  have hread := parseInt64?_numeral hw hdot
  rw [String.ofList_toList] at hread
  have hdot' : l.text.toList.contains '.' = false := by simpa using hdot
  unfold literalValue
  simp only [hq, Bool.false_eq_true, if_false, hdot', hread]
  split_ifs <;> rfl

end BoundClause

/-- Every number of a fragment the lexer accepts binds by its digits: with ASCII digits and a
point as a double, with ASCII digits and no point as the integer it writes while that fits in 64
signed bits, and with a decimal digit of another script as its own text. -/
theorem literalValue_lexedNumber {clock : Stamp} {fragment : String} {ls : List Lexeme}
    (h : Lexeme.lex fragment = .ok ls) {l : Lexeme} (hl : l ∈ ls) (hk : l.kind = .literal)
    (hq : l.isQuoted = false) :
    ((∀ c ∈ l.text.toList, c.toNat < 128) → '.' ∈ l.text.toList →
        ∃ x, literalValue clock l = .float x) ∧
      ((∀ c ∈ l.text.toList, c.toNat < 128) → '.' ∉ l.text.toList →
        literalValue clock l =
          if -(Nat.pow 2 63 : Int) ≤ numeralValue l.text.toList ∧
              numeralValue l.text.toList < Nat.pow 2 63 then
            .int (numeralValue l.text.toList) else .text l.text) ∧
      ((∃ c ∈ l.text.toList, 128 ≤ c.toNat) → literalValue clock l = .text l.text) := by
  have hnum := Lexeme.lex_numeral h hl hk hq
  refine ⟨fun hascii hdot => ?_, fun hascii hdot => ?_, fun ⟨c, hc, hwide⟩ => ?_⟩
  · exact BoundClause.literalValue_of_point hq (hnum.isNumberText hascii) hdot
  · exact BoundClause.literalValue_of_no_point hq (hnum.isNumberText hascii) hdot
  · exact BoundClause.literalValue_of_wide hq hc hwide

/-- `١٢`, twelve in Arabic-Indic digits, is read as a number and bound as its text. -/
theorem literalValue_lexedNumber_arabic_indic :
    Lexeme.lex "a=١٢" = .ok [⟨"a", .identifier⟩, ⟨"=", .operator⟩, ⟨"١٢", .literal⟩] ∧
      literalValue ⟨2024, 1, 2, 3, 4, 5, 0⟩ ⟨"١٢", .literal⟩ = .text "١٢" := by
  have hlex : Lexeme.lex "a=١٢" =
      .ok [⟨"a", .identifier⟩, ⟨"=", .operator⟩, ⟨"١٢", .literal⟩] := by
    decide +kernel
  have hq : Lexeme.isQuoted ⟨"١٢", .literal⟩ = false := isQuoted_eq_false (by simp)
  exact ⟨hlex, (literalValue_lexedNumber hlex (by simp) rfl hq).2.2 ⟨'١', by simp, by decide⟩⟩

/-- A number with a point is bound as a text when a digit is not ASCII: `1.٥` stays `1.٥`. -/
theorem BoundClause.ofText_arabic_indic_fraction :
    BoundClause.ofText ⟨2024, 1, 2, 3, 4, 5, 0⟩ "a=1.٥" = .ok ⟨"a=?", [.text "1.٥"]⟩ := by
  decide +kernel

end QueryShield
