import Mathlib
import QueryShield.Data.Datum
import QueryShield.Proofs.Clause.Folding

/-!
# Reading clause pieces back

A bound clause, once its parameters are written back in, is made of pieces the lexer can read
again: quoted texts, numbers, names whose parts passed the screen, keywords, parentheses,
commas and comparisons.  This module shows that the lexer reads each such piece back as the
lexeme it came from, when what follows is a separator (`lexemeAt_quoteText`,
`lexemeAt_number`, `lexemeAt_identifier`, `lexemeAt_keyword`, `lexemeAt_punctuation`).

Comparisons are the exception: written without spaces, a run of them is regrouped the way the
lexer takes them, longest first (`go_comparisons`); `<` followed by `=` comes back as `<=`.
The run stays a run of comparisons with the same characters.

The lexer itself is stepped a lexeme at a time: a space is skipped (`go_space`), and a lexeme
found at the start of the text is the first one returned (`go_lexeme`).
-/

namespace QueryShield
namespace Lex

open Text

/-! ## Where no lexeme starts -/

def separators : List Char := [' ', '(', ')', ',', '<', '>', '=', '!']

def Separated (rest : List Char) : Prop := ∀ c ∈ rest.head?, c ∈ separators

theorem separators_not_wordChar : ∀ c ∈ separators, isWordChar c = false := by
  simp only [separators, List.mem_cons, List.not_mem_nil, or_false, forall_eq_or_imp, forall_eq]
  decide

theorem separators_not_nameChar : ∀ c ∈ separators, isNameChar c = false := by
  simp only [separators, List.mem_cons, List.not_mem_nil, or_false, forall_eq_or_imp, forall_eq]
  decide

theorem separators_not_digit : ∀ c ∈ separators, isDecimalDigit c = false := by
  simp only [separators, List.mem_cons, List.not_mem_nil, or_false, forall_eq_or_imp, forall_eq]
  decide

theorem quotedLength_eq_none {q : Char} {t : List Char} (h : ∀ c ∈ t.head?, c ≠ q) :
    quotedLength q t = none := by
  cases t with
  | nil => rfl
  | cons c t => simp [quotedLength, h c rfl]

def comparisonChars : List Char := ['<', '>', '=', '!']

theorem comparisons_head :
    ∀ op ∈ comparisons, op.toList ≠ [] ∧ ∀ a ∈ op.toList.head?, a ∈ comparisonChars := by
  simp [comparisons, comparisonChars]

theorem find_comparison_eq_none {t : List Char} (h : ∀ c ∈ t.head?, c ∉ comparisonChars) :
    comparisons.find? (fun op => t.take op.length == op.toList) = none := by
  rw [List.find?_eq_none]
  intro op hop
  obtain ⟨hne, hchar⟩ := comparisons_head op hop
  obtain ⟨a, as, ha⟩ := List.exists_cons_of_ne_nil hne
  have hlen : op.length = as.length + 1 := by simp [← String.length_toList, ha]
  cases t with
  | nil => simp [ha]
  | cons c t =>
    have hca : c ≠ a := fun hca => h c rfl (hca ▸ hchar a (by simp [ha]))
    simp [hlen, ha, hca]

theorem connectives_head :
    ∀ w ∈ connectives, w.toList ≠ [] ∧ ∀ a ∈ w.toList.head?, a.isUpper = true := by
  simp [connectives]

theorem connectiveLength_eq_none {prev : Option Char} {t : List Char}
    (h : ∀ c ∈ t.head?, isNameStart c = false) : connectiveLength prev t = none := by
  unfold connectiveLength
  split
  · rfl
  · rw [List.findSome?_eq_none_iff]
    intro w hw
    obtain ⟨hne, hup⟩ := connectives_head w hw
    obtain ⟨a, as, hwa⟩ := List.exists_cons_of_ne_nil hne
    have ha : a.isUpper = true := hup a (by simp [hwa])
    -- the first character cannot equal, ignoring case, the connective's first letter
    have hhead : foldPrefix t w.toList = false := by
      cases t with
      | nil => simp [hwa, foldPrefix]
      | cons c t =>
        have hfold : foldEq c a = false := by
          by_contra hfold
          exact absurd (isNameStart_of_foldEq ha (by simpa using hfold)) (by simp [h c rfl])
        simp [hwa, foldPrefix, hfold]
    simp [hhead]

theorem nameLength_eq_none {t : List Char} (h : ∀ c ∈ t.head?, isNameStart c = false) :
    nameLength t = none := by
  cases t with
  | nil => rfl
  | cons c t => simp [nameLength, h c rfl]

/-! ## The form taken at a place -/

/-- A character no quoted string, comparison or punctuation lexeme starts with. -/
def PlainStart (c : Char) : Prop :=
  c ≠ '\'' ∧ c ≠ '"' ∧ c ∉ comparisonChars ∧ c ≠ '(' ∧ c ≠ ')' ∧ c ≠ ','

theorem lexemeAt_quoted {prev : Option Char} {t : List Char} {n : Nat}
    (h : quotedLength '\'' t = some n) :
    lexemeAt prev t = some (⟨String.ofList (t.take n), .literal⟩, n) := by
  delta lexemeAt
  simp [h]

theorem lexemeAt_comparison (prev : Option Char) {t : List Char} {op : String}
    (hq : ∀ c ∈ t.head?, c ≠ '\'' ∧ c ≠ '"')
    (h : comparisons.find? (fun op => t.take op.length == op.toList) = some op) :
    lexemeAt prev t = some (⟨op, .operator⟩, op.length) := by
  have h1 : quotedLength '\'' t = none := quotedLength_eq_none fun c hc => (hq c hc).1
  have h2 : quotedLength '"' t = none := quotedLength_eq_none fun c hc => (hq c hc).2
  delta lexemeAt
  simp [h1, h2, h]

theorem lexemeAt_punctuation (prev : Option Char) {c : Char} {t : List Char}
    (hc : c = '(' ∨ c = ')' ∨ c = ',') :
    lexemeAt prev (c :: t) = some (⟨String.singleton c, .punctuation⟩, 1) := by
  have h1 : quotedLength '\'' (c :: t) = none := quotedLength_eq_none (by rintro d ⟨⟩; rcases hc with rfl | rfl | rfl <;> decide)
  have h2 : quotedLength '"' (c :: t) = none := quotedLength_eq_none (by rintro d ⟨⟩; rcases hc with rfl | rfl | rfl <;> decide)
  have h3 : comparisons.find? (fun op => (c :: t).take op.length == op.toList) = none :=
    find_comparison_eq_none (by rintro d ⟨⟩; rcases hc with rfl | rfl | rfl <;> decide)
  have h4 : (c == '(' || c == ')' || c == ',') = true := by rcases hc with rfl | rfl | rfl <;> rfl
  delta lexemeAt
  simp only [h1, h2, h3, h4, if_true]

/-- At a plain start only the connective, name and number forms remain to be tried. -/
theorem PlainStart.forms {c : Char} {t : List Char} (hc : PlainStart c) :
    quotedLength '\'' (c :: t) = none ∧ quotedLength '"' (c :: t) = none ∧
      comparisons.find? (fun op => (c :: t).take op.length == op.toList) = none ∧
      (c == '(' || c == ')' || c == ',') = false := by
  obtain ⟨hq1, hq2, hcmp, hp1, hp2, hp3⟩ := hc
  refine ⟨quotedLength_eq_none (by rintro d ⟨⟩; exact hq1),
    quotedLength_eq_none (by rintro d ⟨⟩; exact hq2),
    find_comparison_eq_none (by rintro d ⟨⟩; exact hcmp), by simp [hp1, hp2, hp3]⟩

theorem lexemeAt_connective {prev : Option Char} {c : Char} {t : List Char} {n : Nat}
    (hc : PlainStart c) (h : connectiveLength prev (c :: t) = some n) :
    lexemeAt prev (c :: t) = some (⟨asciiUpper (String.ofList ((c :: t).take n)), .keyword⟩, n) := by
  obtain ⟨h1, h2, h3, h4⟩ := hc.forms (t := t)
  delta lexemeAt
  simp only [h1, h2, h3, h4, h]
  rfl

theorem lexemeAt_name {prev : Option Char} {c : Char} {t : List Char} {n : Nat}
    (hc : PlainStart c) (h : connectiveLength prev (c :: t) = none)
    (hn : nameLength (c :: t) = some n) :
    lexemeAt prev (c :: t) =
      if Lexicon.isClauseWord (String.ofList ((c :: t).take n)) then
        some (⟨asciiUpper (String.ofList ((c :: t).take n)), .keyword⟩, n)
      else some (⟨String.ofList ((c :: t).take n), .identifier⟩, n) := by
  obtain ⟨h1, h2, h3, h4⟩ := hc.forms (t := t)
  delta lexemeAt
  simp only [h1, h2, h3, h4, h, hn]
  rfl

theorem lexemeAt_numeral {prev : Option Char} {c : Char} {t : List Char} {n : Nat}
    (hc : PlainStart c) (h : connectiveLength prev (c :: t) = none)
    (hn : nameLength (c :: t) = none) (hnum : numberLength (c :: t) = some n) :
    lexemeAt prev (c :: t) = some (⟨String.ofList ((c :: t).take n), .literal⟩, n) := by
  obtain ⟨h1, h2, h3, h4⟩ := hc.forms (t := t)
  delta lexemeAt
  simp only [h1, h2, h3, h4, h, hn, hnum]
  rfl

theorem lexemeAt_none {prev : Option Char} {c : Char} {t : List Char}
    (hc : PlainStart c) (h : connectiveLength prev (c :: t) = none)
    (hn : nameLength (c :: t) = none) (hnum : numberLength (c :: t) = none) :
    lexemeAt prev (c :: t) = none := by
  obtain ⟨h1, h2, h3, h4⟩ := hc.forms (t := t)
  delta lexemeAt
  simp only [h1, h2, h3, h4, h, hn, hnum]
  rfl

/-! ## Quoted texts -/

/-- A character of a text inside single quotes: a quote is written twice. -/
def doubled (c : Char) : List Char := if c == '\'' then ['\'', '\''] else [c]

theorem quoteText_toList (s : String) :
    (Datum.quoteText s).toList = '\'' :: s.toList.flatMap doubled ++ ['\''] := by
  simp only [Datum.quoteText, String.toList_append, String.toList_ofList]
  rfl

theorem quotedLength_go_pair (rest : List Char) (n : Nat) (lastPair : Option Nat) :
    quotedLength.go '\'' ('\'' :: '\'' :: rest) n lastPair =
      quotedLength.go '\'' rest (n + 2) (some n) := by
  simp [quotedLength.go]

theorem quotedLength_go_close {rest : List Char} (hrest : rest.head? ≠ some '\'') (n : Nat)
    (lastPair : Option Nat) : quotedLength.go '\'' ('\'' :: rest) n lastPair = some (n + 1) := by
  cases rest with
  | nil => simp [quotedLength.go]
  | cons d rest =>
    have hd : d ≠ '\'' := fun h => hrest (by simp [h])
    simp [quotedLength.go, hd]

theorem quotedLength_go_other {c : Char} (hc : c ≠ '\'') (rest : List Char) (n : Nat)
    (lastPair : Option Nat) :
    quotedLength.go '\'' (c :: rest) n lastPair = quotedLength.go '\'' rest (n + 1) lastPair := by
  conv_lhs => unfold quotedLength.go
  simp [hc]

/-- The body of a quoted text, read up to its closing quote. -/
theorem quotedLength_go_doubled {rest : List Char} (hrest : rest.head? ≠ some '\'') (s : List Char) :
    ∀ (n : Nat) (lastPair : Option Nat),
      quotedLength.go '\'' (s.flatMap doubled ++ '\'' :: rest) n lastPair =
        some (n + (s.flatMap doubled).length + 1) := by
  induction s with
  | nil => exact fun n lastPair => by simpa using quotedLength_go_close hrest n lastPair
  | cons c s ih =>
    intro n lastPair
    by_cases hc : c = '\''
    · subst hc
      simp only [List.flatMap_cons, doubled, beq_self_eq_true, if_true, List.cons_append,
        List.nil_append, quotedLength_go_pair, ih, List.length_cons]
      congr 1
      omega
    · have hne : (c == '\'') = false := by simpa using hc
      simp only [List.flatMap_cons, doubled, hne, Bool.false_eq_true, if_false, List.cons_append,
        List.nil_append, quotedLength_go_other hc, ih, List.length_cons]
      congr 1
      omega

theorem quotedLength_quoteText (s : String) {rest : List Char} (hrest : rest.head? ≠ some '\'') :
    quotedLength '\'' ((Datum.quoteText s).toList ++ rest) = some (Datum.quoteText s).length := by
  rw [← String.length_toList, quoteText_toList]
  simp only [List.cons_append, List.append_assoc, quotedLength, beq_self_eq_true, if_true,
    List.length_cons, List.length_append]
  rw [List.nil_append, quotedLength_go_doubled hrest]
  simp
  omega

/-- A quoted string found by the lexer is never empty. -/
theorem quotedLength_go_pos {q : Char} {body : List Char} {n : Nat} {lastPair : Option Nat}
    {m : Nat} (h : quotedLength.go q body n lastPair = some m) : 1 ≤ m := by
  fun_induction quotedLength.go q body n lastPair with
  | case1 n lastPair =>
    obtain ⟨a, -, rfl⟩ : ∃ a, lastPair = some a ∧ a + 1 = m := by simpa using h
    omega
  | _ => simp_all <;> omega

theorem quotedLength_head {q : Char} {t : List Char} {m : Nat} (h : quotedLength q t = some m) :
    ∃ r, t = q :: r ∧ 1 ≤ m := by
  cases t with
  | nil => simp [quotedLength] at h
  | cons c body =>
    simp only [quotedLength] at h
    split at h
    · rename_i hc
      exact ⟨body, by rw [eq_of_beq hc], quotedLength_go_pos h⟩
    · cases h

/-- A quoted text, followed by anything but a quote, is read back as one literal. -/
theorem lexemeAt_quoteText {prev : Option Char} (s : String) {rest : List Char}
    (hrest : rest.head? ≠ some '\'') :
    lexemeAt prev ((Datum.quoteText s).toList ++ rest) =
      some (⟨Datum.quoteText s, .literal⟩, (Datum.quoteText s).length) := by
  rw [lexemeAt_quoted (quotedLength_quoteText s hrest), ← String.length_toList, List.take_left,
    String.ofList_toList]

theorem undouble_pair (q : Char) (rest : List Char) :
    Lexeme.unquoted.undouble q (q :: q :: rest) = q :: Lexeme.unquoted.undouble q rest := by
  rw [Lexeme.unquoted.undouble]
  simp

theorem undouble_other {q c : Char} (hc : c ≠ q) (rest : List Char) :
    Lexeme.unquoted.undouble q (c :: rest) = c :: Lexeme.unquoted.undouble q rest := by
  cases rest with
  | nil => rfl
  | cons d rest =>
    rw [Lexeme.unquoted.undouble]
    simp [hc]

theorem undouble_doubled (s : List Char) :
    Lexeme.unquoted.undouble '\'' (s.flatMap doubled) = s := by
  induction s with
  | nil => rfl
  | cons c s ih =>
    by_cases hc : c = '\''
    · subst hc
      simp only [List.flatMap_cons, doubled, beq_self_eq_true, if_true, List.cons_append,
        List.nil_append, undouble_pair, ih]
    · have hne : (c == '\'') = false := by simpa using hc
      simp only [List.flatMap_cons, doubled, hne, Bool.false_eq_true, if_false, List.cons_append,
        List.nil_append, undouble_other hc, ih]

theorem isQuoted_of_head {l : Lexeme} {q : Char} (hk : l.kind = .literal) (hq : q = '\'' ∨ q = '"')
    (h : l.text.toList.head? = some q) : l.isQuoted = true := by
  obtain ⟨r, hr⟩ : ∃ r, l.text.toList = q :: r := by
    cases hl : l.text.toList with
    | nil => simp [hl] at h
    | cons c r => simp only [hl, List.head?_cons, Option.some.injEq] at h; exact ⟨r, by rw [h]⟩
  have hstart : ∀ s : String, s.toList = [q] → l.text.startsWith s = true := by
    intro s hs
    rw [String.startsWith_string_iff, hr, hs]
    exact ⟨r, rfl⟩
  rcases hq with rfl | rfl
  · simp [Lexeme.isQuoted, hk, hstart "'" rfl]
  · simp [Lexeme.isQuoted, hk, hstart "\"" rfl]

theorem unquoted_quoteText (s : String) :
    Lexeme.unquoted ⟨Datum.quoteText s, .literal⟩ = s := by
  have hq : Lexeme.isQuoted ⟨Datum.quoteText s, .literal⟩ = true :=
    isQuoted_of_head rfl (.inl rfl) (by simp [quoteText_toList])
  have hlen : ¬ (Datum.quoteText s).toList.length < 2 := by simp [quoteText_toList]
  simp only [Lexeme.unquoted, hq, Bool.not_true, Bool.false_or, decide_eq_true_eq, hlen, if_false]
  rw [quoteText_toList]
  simp [undouble_doubled]

/-! ## Numbers -/

/-- A number as the lexer reads it: an optional minus sign, ASCII digits, and optionally a
point followed by more ASCII digits. -/
def IsNumberText (w : List Char) : Prop :=
  ∃ sign ds frac : List Char, w = sign ++ ds ++ frac ∧ (sign = [] ∨ sign = ['-']) ∧ ds ≠ [] ∧
    (∀ c ∈ ds, c.isDigit = true) ∧
    (frac = [] ∨ ∃ fs, frac = '.' :: fs ∧ fs ≠ [] ∧ ∀ c ∈ fs, c.isDigit = true)

theorem isDecimalDigit_of_isDigit {c : Char} (h : c.isDigit = true) : isDecimalDigit c = true := by
  have hlt : c.toNat < 128 := by
    simp only [Char.isDigit, Bool.and_eq_true, decide_eq_true_eq, UInt32.le_iff_toNat_le] at h
    have hc : c.toNat = c.val.toNat := rfl
    have h9 : '9'.val.toNat = 57 := rfl
    omega
  simp [isDecimalDigit, show c.toNat < 0x80 from hlt, h]

theorem takeWhile_digits {ds rest : List Char} (hds : ∀ c ∈ ds, c.isDigit = true)
    (hrest : ∀ c ∈ rest.head?, isDecimalDigit c = false) :
    (ds ++ rest).takeWhile isDecimalDigit = ds := by
  rw [takeWhile_append_of_head hrest, List.takeWhile_eq_self_iff.2]
  exact fun c hc => isDecimalDigit_of_isDigit (hds c hc)

theorem numberLength_number {w rest : List Char} (hw : IsNumberText w) (hrest : Separated rest) :
    numberLength (w ++ rest) = some w.length := by
  obtain ⟨sign, ds, frac, rfl, hsign, hne, hds, hfrac⟩ := hw
  have hsep : ∀ c ∈ rest.head?, isDecimalDigit c = false ∧ c ≠ '.' := by
    intro c hc
    have hmem := hrest c hc
    refine ⟨separators_not_digit c hmem, ?_⟩
    rintro rfl
    simp [separators] at hmem
  -- the digits before the point, then the fraction
  have hwhole : (ds ++ frac ++ rest).takeWhile isDecimalDigit = ds := by
    rw [List.append_assoc]
    refine takeWhile_digits hds ?_
    rcases hfrac with rfl | ⟨fs, rfl, -, -⟩
    · exact fun c hc => (hsep c (by simpa using hc)).1
    · simpa using (by decide : isDecimalDigit '.' = false)
  obtain ⟨d, ds', rfl⟩ := List.exists_cons_of_ne_nil hne
  have hd : d ≠ '-' := by
    rintro rfl
    simpa using hds '-' (by simp)
  unfold numberLength
  split
  rename_i s u heq
  -- the sign is read first: what follows it starts with the digits
  have hu : s = sign.length ∧ u = d :: ds' ++ frac ++ rest := by
    split at heq <;> simp only [Prod.mk.injEq] at heq <;> obtain ⟨rfl, rfl⟩ := heq
    · rename_i r hr
      rcases hsign with rfl | rfl
      · simp only [List.nil_append, List.cons_append, List.cons.injEq] at hr
        exact absurd hr.1 hd
      · simpa using hr.symm
    · rename_i hnot
      rcases hsign with rfl | rfl
      · simp
      · exact absurd rfl (hnot _)
  obtain ⟨rfl, rfl⟩ := hu
  have hdrop : (d :: ds' ++ frac ++ rest).drop (d :: ds').length = frac ++ rest := by simp
  simp only [hwhole, hdrop, List.isEmpty_cons, Bool.false_eq_true, if_false]
  rcases hfrac with rfl | ⟨fs, rfl, hfs, hfsd⟩
  · split
    · rename_i r hr
      cases rest with
      | nil => cases hr
      | cons c rest =>
        simp only [List.nil_append, List.cons.injEq] at hr
        exact absurd hr.1 (hsep c rfl).2
    · rcases hsign with rfl | rfl <;>
        simp only [List.length_cons, List.length_nil, List.nil_append, List.cons_append,
          List.append_nil, Option.some.injEq] <;> omega
  · simp only [List.cons_append, takeWhile_digits hfsd (fun c hc => (hsep c hc).1)]
    rcases hsign with rfl | rfl <;> simp [hfs] <;> omega

/-- A number the lexer finds is made of a sign, points and decimal digits only. -/
theorem numberLength_chars {t : List Char} {m : Nat} (h : numberLength t = some m) :
    ∀ c ∈ t.take m, c = '-' ∨ c = '.' ∨ isDecimalDigit c = true := by
  unfold numberLength at h
  split at h
  rename_i s u heq
  dsimp only at h
  split at h
  · cases h
  · simp only [Option.some.injEq] at h
    have hpre : ∀ r : List Char, r.takeWhile isDecimalDigit = r.take (r.takeWhile isDecimalDigit).length :=
      fun r => List.prefix_iff_eq_take.1 (List.takeWhile_prefix _)
    -- after the digits: a point and more digits, or nothing
    have hfrac : ∃ n, m = s + (u.takeWhile isDecimalDigit).length + n ∧
        ∀ c ∈ (u.drop (u.takeWhile isDecimalDigit).length).take n,
          c = '.' ∨ isDecimalDigit c = true := by
      split at h
      · rename_i r hr
        split_ifs at h
        · exact ⟨0, by omega, by simp⟩
        · refine ⟨(r.takeWhile isDecimalDigit).length + 1, by omega, ?_⟩
          intro c hc
          rw [hr, List.take_succ_cons, ← hpre] at hc
          rcases List.mem_cons.1 hc with rfl | hc
          · exact .inl rfl
          · exact .inr (List.mem_takeWhile_imp hc)
      · exact ⟨0, by omega, by simp⟩
    obtain ⟨n, rfl, hn⟩ := hfrac
    have hbody : ∀ c ∈ u.take ((u.takeWhile isDecimalDigit).length + n),
        c = '.' ∨ isDecimalDigit c = true := by
      intro c hc
      rw [List.take_add, ← hpre] at hc
      rcases List.mem_append.1 hc with hc | hc
      · exact .inr (List.mem_takeWhile_imp hc)
      · exact hn c hc
    -- the sign is read first
    split at heq <;> simp only [Prod.mk.injEq] at heq <;> obtain ⟨rfl, rfl⟩ := heq
    · intro c hc
      rw [Nat.add_assoc, Nat.add_comm 1, List.take_succ_cons] at hc
      rcases List.mem_cons.1 hc with rfl | hc
      · exact .inl rfl
      · exact (hbody c hc).elim (fun h => .inr (.inl h)) (fun h => .inr (.inr h))
    · intro c hc
      rw [Nat.zero_add] at hc
      exact (hbody c hc).elim (fun h => .inr (.inl h)) (fun h => .inr (.inr h))

theorem toNat_lt_of_isDigit {c : Char} (h : c.isDigit = true) : c.toNat < 128 := by
  simp only [Char.isDigit, Bool.and_eq_true, decide_eq_true_eq, UInt32.le_iff_toNat_le] at h
  have hc : c.toNat = c.val.toNat := rfl
  have h9 : '9'.val.toNat = 57 := rfl
  omega

theorem isDigit_start {c : Char} (h : c.isDigit = true) :
    isNameStart c = false ∧ c ≠ '\'' ∧ c ≠ '"' ∧ c ∉ comparisonChars ∧ c ≠ '(' ∧ c ≠ ')' ∧
      c ≠ ',' := by
  refine ascii_forall (fun c => c.isDigit = true → isNameStart c = false ∧ c ≠ '\'' ∧ c ≠ '"' ∧
    c ∉ comparisonChars ∧ c ≠ '(' ∧ c ≠ ')' ∧ c ≠ ',') ?_ (toNat_lt_of_isDigit h) h
  simp only [comparisonChars]
  decide

theorem IsNumberText.head {w : List Char} (hw : IsNumberText w) :
    ∃ c w', w = c :: w' ∧ isNameStart c = false ∧ PlainStart c := by
  obtain ⟨sign, ds, frac, rfl, hsign, hne, hds, -⟩ := hw
  obtain ⟨d, ds', rfl⟩ := List.exists_cons_of_ne_nil hne
  rcases hsign with rfl | rfl
  · obtain ⟨h1, h2, h3, h4, h5, h6, h7⟩ := isDigit_start (hds d (by simp))
    exact ⟨d, ds' ++ frac, by simp, h1, h2, h3, h4, h5, h6, h7⟩
  · exact ⟨'-', d :: ds' ++ frac, by simp, by decide, by simp [PlainStart, comparisonChars]⟩

theorem lexemeAt_number {prev : Option Char} {w rest : List Char} (hw : IsNumberText w)
    (hrest : Separated rest) :
    lexemeAt prev (w ++ rest) = some (⟨String.ofList w, .literal⟩, w.length) := by
  obtain ⟨c, w', hcw, hname, hplain⟩ := hw.head
  have hnum := numberLength_number hw hrest
  rw [hcw] at hnum ⊢
  rw [List.cons_append] at hnum ⊢
  rw [lexemeAt_numeral hplain (connectiveLength_eq_none (by simpa using hname))
    (nameLength_eq_none (by simpa using hname)) hnum]
  simp

theorem numberLength_space (t : List Char) : numberLength (' ' :: t) = none := by
  simp [numberLength, isDecimalDigit]

/-- No lexeme starts at a space. -/
theorem lexemeAt_space (prev : Option Char) (t : List Char) : lexemeAt prev (' ' :: t) = none :=
  lexemeAt_none (by simp [PlainStart, comparisonChars])
    (connectiveLength_eq_none (by simp [isNameStart])) (nameLength_eq_none (by simp [isNameStart]))
    (numberLength_space t)

/-! ## Names and keywords -/

theorem isNameStart_plain {c : Char} (h : isNameStart c = true) : PlainStart c := by
  rcases isNameChar_cases (isNameChar_of_isNameStart h) with hc | rfl | rfl
  · refine ascii_forall (fun c => isNameStart c = true → PlainStart c) ?_ hc h
    simp only [PlainStart, comparisonChars]
    decide
  · simp only [PlainStart, comparisonChars]
    decide
  · simp only [PlainStart, comparisonChars]
    decide

/-- A name whose parts all passed the screen's symbol and keyword searches. -/
def IsScreenedName (w : List Char) : Prop :=
  ∃ parts : List (List Char), parts ≠ [] ∧
    (∀ p ∈ parts, IsNamePart p ∧ Screen.searchFamilies p Families.symbolsAndKeywords = .clean) ∧
    w = ['.'].intercalate parts

theorem IsScreenedName.dotted {w : List Char} (h : IsScreenedName w) : IsDottedName w := by
  obtain ⟨parts, hne, hparts, rfl⟩ := h
  exact ⟨parts, hne, fun p hp => (hparts p hp).1, rfl⟩

theorem separated_not_nameChar {rest : List Char} (h : Separated rest) :
    ∀ c ∈ rest.head?, isNameChar c = false ∧ c ≠ '.' := by
  intro c hc
  have hmem := h c hc
  refine ⟨separators_not_nameChar c hmem, ?_⟩
  rintro rfl
  simp [separators] at hmem

theorem nameParts_dotted {rest : List Char} (hrest : ∀ c ∈ rest.head?, isNameChar c = false ∧ c ≠ '.') :
    ∀ parts : List (List Char), (∀ p ∈ parts, IsNamePart p) →
      nameParts ((parts.map ('.' :: ·)).flatten ++ rest) = ((parts.map ('.' :: ·)).flatten).length
  | [], _ => by
    cases rest with
    | nil => simp [nameParts]
    | cons c rest =>
      have hc := (hrest c rfl).2
      simp only [List.map_nil, List.flatten_nil, List.nil_append, List.length_nil]
      unfold nameParts
      split
      · rename_i d r h
        simp only [List.cons.injEq] at h
        exact absurd h.1 hc
      · rfl
  | p :: parts, hparts => by
    obtain ⟨c, cs, rfl, hc, hcs⟩ := hparts p (by simp)
    have htail := nameParts_dotted hrest parts fun q hq => hparts q (by simp [hq])
    have hmore : (cs ++ (parts.map ('.' :: ·)).flatten ++ rest).takeWhile isNameChar = cs := by
      rw [List.append_assoc, takeWhile_append_of_head, List.takeWhile_eq_self_iff.2 hcs]
      intro d hd
      cases parts with
      | nil => simpa using (hrest d (by simpa using hd)).1
      | cons q parts =>
        simp only [List.map_cons, List.flatten_cons, List.cons_append, List.head?_cons,
          Option.mem_def, Option.some.injEq] at hd
        subst hd
        decide
    simp only [List.map_cons, List.flatten_cons, List.cons_append, List.append_assoc]
    rw [nameParts, if_pos hc]
    simp only [← List.append_assoc, hmore]
    rw [List.append_assoc, List.drop_left, htail]
    simp only [List.length_cons, List.length_append]
    omega

theorem nameLength_dotted {w rest : List Char} (hw : IsDottedName w)
    (hrest : ∀ c ∈ rest.head?, isNameChar c = false ∧ c ≠ '.') :
    nameLength (w ++ rest) = some w.length := by
  obtain ⟨parts, hne, hparts, rfl⟩ := hw
  obtain ⟨p, parts, rfl⟩ := List.exists_cons_of_ne_nil hne
  obtain ⟨c, cs, rfl, hc, hcs⟩ := hparts p (by simp)
  have htail := nameParts_dotted hrest parts fun q hq => hparts q (by simp [hq])
  have hmore : (cs ++ (parts.map ('.' :: ·)).flatten ++ rest).takeWhile isNameChar = cs := by
    rw [List.append_assoc, takeWhile_append_of_head, List.takeWhile_eq_self_iff.2 hcs]
    intro d hd
    cases parts with
    | nil => simpa using (hrest d (by simpa using hd)).1
    | cons q parts =>
      simp only [List.map_cons, List.flatten_cons, List.cons_append, List.head?_cons,
        Option.mem_def, Option.some.injEq] at hd
      subst hd
      decide
  rw [← intercalate_dot_cons]
  simp only [List.cons_append, nameLength, if_pos hc]
  rw [hmore, List.append_assoc, List.drop_left, htail]
  simp only [List.length_cons, List.length_append, Option.some.injEq]
  omega

/-- A name that passed the screen never starts with a connective: the keyword search would have
found it. -/
theorem connectiveLength_screened (prev : Option Char) {w rest : List Char} (hw : IsScreenedName w)
    (hrest : Separated rest) : connectiveLength prev (w ++ rest) = none := by
  obtain ⟨parts, hne, hparts, rfl⟩ := hw
  obtain ⟨p, parts, rfl⟩ := List.exists_cons_of_ne_nil hne
  obtain ⟨hp, hclean⟩ := hparts p (by simp)
  set tail := (parts.map ('.' :: ·)).flatten with htail
  -- what follows the first part may not start a name
  have hafter : ∀ c ∈ (tail ++ rest).head?, isNameStart c = false := by
    intro c hc
    cases parts with
    | nil =>
      have := separators_not_nameChar c (hrest c (by simpa [htail] using hc))
      simp only [isNameChar, Bool.or_eq_false_iff] at this
      exact this.1.1
    | cons q parts =>
      simp only [htail, List.map_cons, List.flatten_cons, List.cons_append, List.head?_cons,
        Option.mem_def, Option.some.injEq] at hc
      subst hc
      decide
  rw [← intercalate_dot_cons]
  unfold connectiveLength
  split
  · rfl
  · rw [List.findSome?_eq_none_iff]
    intro k hk
    simp only [ite_eq_right_iff, reduceCtorEq, imp_false]
    intro hcond
    obtain ⟨hmap, hlen, hstart, hnext⟩ := connective_match hk hcond
    rw [List.append_assoc] at hmap hlen hstart hnext
    -- the connective lies inside the first part
    have hle : k.length ≤ p.length := by
      by_contra hle
      have hlt := Nat.lt_of_not_le hle
      obtain ⟨d, r, hdr⟩ : ∃ d r, tail ++ rest = d :: r := by
        cases h : tail ++ rest with
        | nil =>
          rw [h, List.append_nil] at hlen
          omega
        | cons d r => exact ⟨d, r, rfl⟩
      have hmem : d ∈ (p ++ (tail ++ rest)).take k.length := by
        rw [hdr, List.take_append, List.take_of_length_le (by omega)]
        apply List.mem_append_right
        rw [show k.length - p.length = (k.length - p.length - 1) + 1 by omega]
        simp
      have := hafter d (by rw [hdr]; rfl)
      rw [hstart d hmem] at this
      exact absurd this (by decide)
    rw [List.take_append_of_le_length hle] at hmap hstart
    rw [List.drop_append_of_le_length hle] at hnext
    refine Screen.searchFamilies_connective_run hk (u := p.take k.length) (v := p.drop k.length)
      hmap ?_ (fun c hc => isWordChar_of_isNameStart (hstart c hc)) ?_ (by rw [List.take_append_drop]; exact hclean)
    · obtain ⟨hkne, -⟩ := connectives_letters k hk
      obtain ⟨c, cs, rfl, -, -⟩ := hp
      have hpos : 0 < k.length := by
        rw [← String.length_toList]
        exact List.length_pos_of_ne_nil hkne
      simp only [ne_eq, List.take_eq_nil_iff, reduceCtorEq, or_false]
      omega
    · intro c hc
      exact hnext c (by rw [List.head?_append, hc]; rfl)

/-- A screened name that is no clause word, followed by a separator, is read back as the same
name. -/
theorem lexemeAt_identifier (prev : Option Char) {w rest : List Char} (hw : IsScreenedName w)
    (hclause : Lexicon.isClauseWord (String.ofList w) = false) (hrest : Separated rest) :
    lexemeAt prev (w ++ rest) = some (⟨String.ofList w, .identifier⟩, w.length) := by
  obtain ⟨c, w', hcw, hc⟩ := hw.dotted.head
  have hconn := connectiveLength_screened prev hw hrest
  have hname := nameLength_dotted hw.dotted (separated_not_nameChar hrest)
  rw [hcw] at hconn hname hclause ⊢
  rw [List.cons_append] at hconn hname ⊢
  have htake : (c :: (w' ++ rest)).take (c :: w').length = c :: w' := by simp
  rw [lexemeAt_name (isNameStart_plain hc) hconn hname]
  simp only [htake, hclause, Bool.false_eq_true, if_false]

/-- A keyword as a bound clause writes it: a connective without lower-case ASCII letters that
the lexer reads as a connective or as a clause word. -/
def IsKeywordText (w : List Char) : Prop :=
  IsConnective w ∧ (Lexicon.isClauseWord (String.ofList w) = true ∨
    ∃ k ∈ connectives, w.map foldKey = k.toList.map Char.toLower)

theorem IsConnective.ne_nil {w : List Char} (h : IsConnective w) : w ≠ [] := by
  obtain ⟨-, k, hk, hfold⟩ := h
  rintro rfl
  simp only [connectiveWords, List.mem_cons, List.not_mem_nil, or_false] at hk
  rcases hk with rfl | rfl | rfl | rfl | rfl | rfl | rfl | rfl | rfl | rfl <;>
    simp [foldEqWord] at hfold

theorem asciiUpper_eq_self {w : List Char} (h : ∀ c ∈ w, c.isLower = false) :
    asciiUpper (String.ofList w) = String.ofList w := by
  rw [asciiUpper, ← String.toList_inj, String.toList_map, String.toList_ofList]
  exact (List.map_congr_left fun c hc => Char.toUpper_eq_of_not_isLower (by simp [h c hc])).trans
    (List.map_id w)

/-- A keyword standing after no word character and before a separator is read back as itself. -/
theorem lexemeAt_keyword {prev : Option Char} {w rest : List Char}
    (hprev : ∀ d ∈ prev, isWordChar d = false) (hw : IsKeywordText w) (hrest : Separated rest) :
    lexemeAt prev (w ++ rest) = some (⟨String.ofList w, .keyword⟩, w.length) := by
  obtain ⟨hconn, hkind⟩ := hw
  have hstart := hconn.isNameStart
  have hne := hconn.ne_nil
  have hrest' : ∀ c ∈ rest.head?, isWordChar c = false ∧ isNameStart c = false := by
    intro c hc
    refine ⟨separators_not_wordChar c (hrest c hc), ?_⟩
    have := separators_not_nameChar c (hrest c hc)
    simp only [isNameChar, Bool.or_eq_false_iff] at this
    exact this.1.1
  have hlen := connectiveLength_word hprev hne hstart hrest'
  obtain ⟨c, w', rfl⟩ := List.exists_cons_of_ne_nil hne
  rw [List.cons_append] at hlen ⊢
  have hplain := isNameStart_plain (hstart c (by simp))
  have hupper := asciiUpper_eq_self hconn.1
  cases hf : connectives.find? (fun k => (c :: w').map foldKey == k.toList.map Char.toLower) with
  | some k =>
    -- the word folds to a connective of its own length
    have hfold := List.find?_some hf
    simp only [beq_iff_eq] at hfold
    have hk : k.length = (c :: w').length := by
      rw [← String.length_toList, ← List.length_map (f := Char.toLower), ← hfold, List.length_map]
    rw [hf, Option.map_some, hk] at hlen
    rw [lexemeAt_connective hplain hlen, ← List.cons_append, List.take_left, hupper]
  | none =>
    -- no connective: the word is a one-part name that the clause words list
    rw [hf, Option.map_none] at hlen
    have hclause : Lexicon.isClauseWord (String.ofList (c :: w')) = true := by
      refine hkind.resolve_right ?_
      rintro ⟨k, hk, hfold⟩
      have := List.find?_eq_none.1 hf k hk
      simp [hfold] at this
    have hdotted : IsDottedName (c :: w') :=
      ⟨[c :: w'], by simp, by
        simp only [List.mem_singleton, forall_eq]
        exact ⟨c, w', rfl, hstart c (by simp),
          fun d hd => isNameChar_of_isNameStart (hstart d (by simp [hd]))⟩, by simp⟩
    have hname := nameLength_dotted hdotted (separated_not_nameChar hrest)
    rw [List.cons_append] at hname
    rw [lexemeAt_name hplain hlen hname, ← List.cons_append, List.take_left, hclause, if_pos rfl,
      hupper]

/-! ## Runs of comparisons -/

/-- Text made of comparisons written one after the other. -/
inductive ComparisonRun : List Char → Prop
  | nil : ComparisonRun []
  | cons {op : String} {r : List Char} : op ∈ comparisons → ComparisonRun r →
      ComparisonRun (op.toList ++ r)

theorem comparisons_chars : ∀ op ∈ comparisons, ∀ c ∈ op.toList, c ∈ comparisonChars := by
  simp [comparisons, comparisonChars]

theorem comparisons_length : ∀ op ∈ comparisons, 0 < op.toList.length ∧ op.toList.length ≤ 2 := by
  simp [comparisons]

/-- The second character of a two-character comparison is a comparison of its own. -/
theorem comparisons_tail : ∀ op ∈ comparisons, ComparisonRun (op.toList.drop 1) := by
  have h1 : ComparisonRun "=".toList := by
    simpa using @ComparisonRun.cons "=" [] (by simp [comparisons]) .nil
  have h2 : ComparisonRun ">".toList := by
    simpa using @ComparisonRun.cons ">" [] (by simp [comparisons]) .nil
  simp only [comparisons, List.mem_cons, List.not_mem_nil, or_false]
  -- `<=`, `>=` and `!=` end in `=`, `<>` in `>`, and a one-character comparison leaves nothing
  rintro op (rfl | rfl | rfl | rfl | rfl | rfl | rfl)
  case inl | inr.inl | inr.inr.inl => simpa using h1
  case inr.inr.inr.inl => simpa using h2
  all_goals simpa using ComparisonRun.nil

theorem ComparisonRun.append {r s : List Char} (hr : ComparisonRun r) (hs : ComparisonRun s) :
    ComparisonRun (r ++ s) := by
  induction hr with
  | nil => simpa using hs
  | cons hop _ ih =>
    rw [List.append_assoc]
    exact .cons hop ih

theorem ComparisonRun.drop_one {r : List Char} (hr : ComparisonRun r) : ComparisonRun (r.drop 1) := by
  cases hr with
  | nil => exact .nil
  | cons hop hr =>
    rename_i op r
    obtain ⟨hpos, -⟩ := comparisons_length op hop
    rw [List.drop_append_of_le_length hpos]
    exact (comparisons_tail op hop).append hr

theorem ComparisonRun.drop {r : List Char} (hr : ComparisonRun r) (n : Nat) :
    ComparisonRun (r.drop n) := by
  induction n with
  | zero => simpa using hr
  | succ n ih =>
    rw [← List.drop_drop]
    exact ih.drop_one

theorem ComparisonRun.chars {r : List Char} (hr : ComparisonRun r) : ∀ c ∈ r, c ∈ comparisonChars := by
  induction hr with
  | nil => simp
  | cons hop _ ih =>
    intro c hc
    rcases List.mem_append.1 hc with hc | hc
    · exact comparisons_chars _ hop c hc
    · exact ih c hc

/-- The lexer takes the longest comparison first; what it leaves of a run of comparisons is
again such a run, whatever follows the run. -/
theorem find_comparison_run {r rest : List Char} (hr : ComparisonRun r) (hne : r ≠ [])
    (hrest : ∀ c ∈ rest.head?, c ∉ comparisonChars) :
    ∃ op ∈ comparisons,
      comparisons.find? (fun op => (r ++ rest).take op.length == op.toList) = some op ∧
      op.toList <+: r := by
  -- the first comparison of the run is a candidate, so the search finds one
  obtain ⟨o, ho, hfirst⟩ : ∃ o ∈ comparisons, o.toList <+: r := by
    cases hr with
    | nil => exact absurd rfl hne
    | cons hop _ => exact ⟨_, hop, List.prefix_append _ _⟩
  have hsome : (comparisons.find? fun op => (r ++ rest).take op.length == op.toList).isSome := by
    rw [List.find?_isSome]
    refine ⟨o, ho, ?_⟩
    rw [beq_iff_eq, ← String.length_toList]
    exact List.prefix_iff_eq_take.1 (hfirst.trans (List.prefix_append r rest)) |>.symm
  obtain ⟨op, hop⟩ := Option.isSome_iff_exists.1 hsome
  have hmem := List.mem_of_find?_eq_some hop
  have htake := List.find?_some hop
  rw [beq_iff_eq, ← String.length_toList] at htake
  refine ⟨op, hmem, hop, ?_⟩
  -- the comparison found does not reach into what follows the run
  have hle : op.toList.length ≤ r.length := by
    by_contra hlt
    obtain ⟨hpos, hle2⟩ := comparisons_length op hmem
    obtain ⟨d, rest', rfl⟩ : ∃ d rest', rest = d :: rest' := by
      cases rest with
      | nil =>
        rw [List.append_nil, List.take_of_length_le (by omega)] at htake
        exact absurd (congrArg List.length htake) (by omega)
      | cons d rest' => exact ⟨d, rest', rfl⟩
    have hd : d ∈ op.toList := by
      rw [← htake, List.take_append, List.take_of_length_le (by omega)]
      apply List.mem_append_right
      rw [show op.toList.length - r.length = (op.toList.length - r.length - 1) + 1 by omega]
      simp
    exact hrest d rfl (comparisons_chars op hmem d hd)
  rw [← htake, List.take_append_of_le_length hle]
  exact List.take_prefix _ _

/-! ## The lexer, a lexeme at a time -/


theorem checkGap_blank {gap : List Char} (h : ∀ c ∈ gap, isBlank c = true) :
    checkGap gap = .ok () := by
  simp [checkGap, trimChars, List.dropWhile_eq_nil_iff.2 h]

/-- A space is skipped. -/
theorem go_space (prev : Option Char) (gap rest : List Char) :
    go prev gap (' ' :: rest) = go (some ' ') (' ' :: gap) rest := by
  conv_lhs => rw [go]
  simp [lexemeAt_space]

theorem go_nil {prev : Option Char} {gap : List Char} (h : ∀ c ∈ gap, isBlank c = true) :
    go prev gap [] = .ok [] := by
  rw [go, checkGap_blank (by simpa using h)]
  rfl

/-- A lexeme found after blanks is the first lexeme; the rest is lexed after its last
character. -/
theorem go_lexeme {prev : Option Char} {gap chunk rest : List Char} {l : Lexeme}
    {ls : List Lexeme} (hgap : ∀ c ∈ gap, isBlank c = true) (hne : chunk ≠ [])
    (hlex : lexemeAt prev (chunk ++ rest) = some (l, chunk.length))
    (hrest : go chunk.getLast? [] rest = .ok ls) :
    go prev gap (chunk ++ rest) = .ok (l :: ls) := by
  obtain ⟨c, cs, rfl⟩ := List.exists_cons_of_ne_nil hne
  rw [List.cons_append] at hlex ⊢
  conv_lhs => rw [go]
  have htake : (c :: (cs ++ rest)).take (cs.length + 1) = c :: cs := by
    rw [← List.length_cons, ← List.cons_append, List.take_left]
  have hlast : ((c :: cs).getLast?.orElse fun _ => prev) = (c :: cs).getLast? := by
    rw [List.getLast?_eq_some_getLast (by simp)]
    rfl
  have hgap' : checkGap gap.reverse = .ok () := checkGap_blank (by simpa using hgap)
  simp only [hlex, hgap', List.length_cons, htake, hlast, Nat.add_sub_cancel, List.drop_left, hrest]

/-- A run of comparisons is read as comparisons, regrouped the way the lexer groups them. -/
theorem go_comparisons {r rest : List Char} {ls : List Lexeme}
    (hrest : ∀ c ∈ rest.head?, c ∉ comparisonChars) (hr : ComparisonRun r) (hne : r ≠ [])
    (hls : go r.getLast? [] rest = .ok ls) (prev : Option Char) (gap : List Char)
    (hgap : ∀ c ∈ gap, isBlank c = true) :
    ∃ ops : List String, ops ≠ [] ∧ (∀ o ∈ ops, o ∈ comparisons) ∧
      (ops.map String.toList).flatten = r ∧
      go prev gap (r ++ rest) = .ok (ops.map (fun o => ⟨o, .operator⟩) ++ ls) := by
  -- induction on the length of the run, a comparison at a time
  induction hn : r.length using Nat.strong_induction_on generalizing r prev gap with
  | _ n ih =>
    obtain ⟨op, hop, hfind, r', hr'⟩ := find_comparison_run hr hne hrest
    obtain ⟨hpos, -⟩ := comparisons_length op hop
    have hopne : op.toList ≠ [] := List.ne_nil_of_length_pos hpos
    have hrun' : ComparisonRun r' := by
      simpa [← hr'] using hr.drop op.toList.length
    have hhead : ∀ c ∈ (r ++ rest).head?, c ≠ '\'' ∧ c ≠ '"' := by
      intro c hc
      obtain ⟨d, ds, rfl⟩ := List.exists_cons_of_ne_nil hne
      simp only [List.cons_append, List.head?_cons, Option.mem_def, Option.some.injEq] at hc
      subst hc
      have := hr.chars d (by simp)
      simp only [comparisonChars, List.mem_cons, List.not_mem_nil, or_false] at this
      rcases this with rfl | rfl | rfl | rfl <;> decide
    have hlex := lexemeAt_comparison prev hhead hfind
    rw [← hr', List.append_assoc, ← String.length_toList] at hlex
    by_cases hnil : r' = []
    · subst hnil
      rw [List.append_nil] at hr'
      subst hr'
      refine ⟨[op], by simp, by simpa using hop, by simp, ?_⟩
      exact go_lexeme hgap hopne (by simpa using hlex) hls
    · -- the rest of the run, after the comparison just read
      have hlast : r'.getLast? = r.getLast? := by
        rw [← hr', List.getLast?_append, List.getLast?_eq_some_getLast hnil]
        rfl
      have hlt : r'.length < n := by
        rw [← hn, ← hr', List.length_append]
        omega
      obtain ⟨ops, -, hops, hflat, hgo⟩ :=
        ih _ hlt hrun' hnil (hlast ▸ hls) op.toList.getLast? [] (by simp) rfl
      refine ⟨op :: ops, by simp, ?_, ?_, ?_⟩
      · intro o ho
        rcases List.mem_cons.1 ho with rfl | ho
        · exact hop
        · exact hops o ho
      · simp [hflat, hr']
      · rw [← hr', List.append_assoc]
        exact go_lexeme hgap hopne hlex hgo

/-- What the lexer's names and keywords look like beyond their shape: a name is no clause word,
and a keyword is read back as a keyword. -/
theorem lexemeAt_relexable {prev : Option Char} {t : List Char} {l : Lexeme} {n : Nat}
    (h : lexemeAt prev t = some (l, n)) :
    (l.kind = .identifier → Lexicon.isClauseWord l.text = false) ∧
      (l.kind = .keyword → IsKeywordText l.text.toList) := by
  have hshape := lexemeAt_shaped h
  unfold lexemeAt at h
  split at h
  · cases h; simp
  · split at h
    · cases h; simp
    · split at h
      · cases h; simp
      · split at h
        · split at h
          · cases h; simp
          · split at h
            · -- a connective: it folds to one
              rename_i m hm
              cases h
              refine ⟨by simp, fun _ => ⟨hshape, .inr ?_⟩⟩
              obtain ⟨k, hk, -, hfold⟩ := connectiveLength_some hm
              refine ⟨k, hk, ?_⟩
              rw [asciiUpper, String.toList_map, String.toList_ofList, List.map_map]
              rw [← hfold]
              exact List.map_congr_left fun c _ => foldKey_toUpper c
            · split at h
              · dsimp only at h
                split at h
                · -- a clause word, upper-cased
                  rename_i hclause
                  cases h
                  refine ⟨by simp, fun _ => ⟨hshape, .inl ?_⟩⟩
                  rw [String.ofList_toList, Lexicon.isClauseWord_asciiUpper]
                  exact hclause
                · rename_i hclause
                  cases h
                  exact ⟨fun _ => by simpa using hclause, by simp⟩
              · split at h
                · cases h; simp
                · cases h
        · cases h

/-- A literal the lexer finds is quoted, or made of a sign, points and decimal digits. -/
theorem lexemeAt_literal {prev : Option Char} {t : List Char} {l : Lexeme} {n : Nat}
    (h : lexemeAt prev t = some (l, n)) (hk : l.kind = .literal) :
    l.isQuoted = true ∨ ∀ c ∈ l.text.toList, c = '-' ∨ c = '.' ∨ isDecimalDigit c = true := by
  -- a quoted string starts with its quote, which the taken prefix keeps
  have hquoted : ∀ q : Char, q = '\'' ∨ q = '"' → ∀ m, quotedLength q t = some m →
      (⟨String.ofList (t.take m), .literal⟩ : Lexeme).isQuoted = true := by
    intro q hq m hm
    obtain ⟨r, rfl, hm1⟩ := quotedLength_head hm
    obtain ⟨k, rfl⟩ : ∃ k, m = k + 1 := ⟨m - 1, by omega⟩
    exact isQuoted_of_head rfl hq (by simp)
  unfold lexemeAt at h
  split at h
  · rename_i m hm
    cases h
    exact .inl (hquoted _ (.inl rfl) _ hm)
  · split at h
    · rename_i m hm
      cases h
      exact .inl (hquoted _ (.inr rfl) _ hm)
    · split at h
      · cases h; cases hk
      · split at h
        · split at h
          · cases h; cases hk
          · split at h
            · cases h; cases hk
            · split at h
              · dsimp only at h
                split at h <;> cases h <;> cases hk
              · split at h
                · rename_i m hm
                  cases h
                  right
                  simpa using numberLength_chars hm
                · cases h
        · cases h

/-- Every lexeme the lexer returns has the properties every lexeme found at a place has. -/
theorem go_forall {P : Lexeme → Prop}
    (hP : ∀ prev t l n, lexemeAt prev t = some (l, n) → P l) {prev : Option Char}
    {gap t : List Char} {ls : List Lexeme} (h : go prev gap t = .ok ls) : ∀ l ∈ ls, P l := by
  fun_induction go prev gap t generalizing ls with
  | case1 prev gap =>
    cases hc : checkGap gap.reverse with
    | error e => simp [hc, Except.map] at h
    | ok u =>
      simp only [hc, Except.map, Except.ok.injEq] at h
      simp [← h]
  | case2 prev gap c cs l n hlex e hgap =>
    simp only [List.unattach_reverse, List.unattach_attach] at hgap
    simp [hgap] at h
  | case3 prev gap c cs l n hlex hgap _ _ _ | case4 prev gap c cs l n hlex hgap _ _ _ =>
    rename_i ih
    simp only [List.unattach_reverse, List.unattach_attach] at hgap
    rw [hgap] at h
    dsimp only at h
    split at h
    · rename_i rest hrest
      cases h
      intro l' hl'
      rcases List.mem_cons.1 hl' with rfl | hl'
      · exact hP _ _ _ _ hlex
      · exact ih hrest l' hl'
    · cases h
  | case5 prev gap c cs hnone ih => exact ih h

end Lex
end QueryShield
