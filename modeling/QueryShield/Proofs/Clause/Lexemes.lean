import Mathlib
import QueryShield.Clause.Lexeme

/-!
# The shapes of lexemes

The lexer of `WHERE` fragments takes, at each place, the first form that starts there.
Whatever the fragment, what it returns has few shapes: a comparison is one of the seven
comparisons, a punctuation lexeme is a parenthesis or a comma, a keyword is a connective
written without lower-case ASCII letters, and a name is one or more parts separated by single
dots, each a letter or `_` followed by name characters.  Strings and numbers may hold
anything; a bound clause never writes them.

`Lexeme.lex_shaped` states this of every lexeme of every fragment the lexer accepts.  The
facts about name characters that the later proofs need come first: a name character is never
blank, and the first character of a name is never a digit.
-/

namespace QueryShield
namespace Lex

open Text

/-! ## Characters of names -/

theorem isNameChar_of_isNameStart {c : Char} (h : isNameStart c = true) :
    isNameChar c = true := by
  simp [isNameChar, h]

/-- A name character is ASCII, the Kelvin sign or the long s. -/
theorem isNameChar_cases {c : Char} (h : isNameChar c = true) :
    c.toNat < 128 ∨ c = 'K' ∨ c = 'ſ' := by
  simp only [isNameChar, isNameStart, Bool.or_eq_true, Bool.and_eq_true, decide_eq_true_eq,
    beq_iff_eq, Char.le_def, UInt32.le_iff_toNat_le] at h
  have hc : c.toNat = c.val.toNat := rfl
  rcases h with (((((h | h) | h) | h) | h) | h) | h <;> simp_all <;> omega

/-- A statement about the ASCII characters, checked code point by code point. -/
theorem ascii_forall (P : Char → Prop) (h : ∀ n < 128, P (Char.ofNat n)) {c : Char}
    (hc : c.toNat < 128) : P c := by
  simpa [Char.ofNat_toNat] using h c.toNat hc

theorem isNameChar_not_blank {c : Char} (h : isNameChar c = true) : isBlank c = false := by
  rcases isNameChar_cases h with hc | rfl | rfl
  · exact ascii_forall (fun c => isNameChar c = true → isBlank c = false) (by decide) hc h
  · decide
  · decide

theorem isNameStart_not_digit {c : Char} (h : isNameStart c = true) :
    isDecimalDigit c = false := by
  rcases isNameChar_cases (isNameChar_of_isNameStart h) with hc | rfl | rfl
  · exact ascii_forall (fun c => isNameStart c = true → isDecimalDigit c = false) (by decide) hc h
  · decide
  · decide

theorem toNat_lt_of_isUpper {a : Char} (h : a.isUpper = true) : a.toNat < 128 := by
  simp only [Char.isUpper, UInt32.le_iff_toNat_le, decide_eq_true_eq, ge_iff_le] at h
  have ha : a.toNat = a.val.toNat := rfl
  have hZ : 'Z'.val.toNat = 90 := rfl
  omega

theorem toNat_lt_of_isLower {a : Char} (h : a.isLower = true) : a.toNat < 128 := by
  simp only [Char.isLower, UInt32.le_iff_toNat_le, decide_eq_true_eq, ge_iff_le,
    Bool.and_eq_true] at h
  have ha : a.toNat = a.val.toNat := rfl
  have hz : 'z'.val.toNat = 122 := rfl
  omega

theorem isNameStart_of_isAlpha {c : Char} (h : c.isAlpha = true) : isNameStart c = true := by
  simp only [Char.isAlpha, Char.isUpper, Char.isLower, Bool.or_eq_true, Bool.and_eq_true,
    decide_eq_true_eq] at h
  simp only [isNameStart, Bool.or_eq_true, Bool.and_eq_true, decide_eq_true_eq, Char.le_def,
    UInt32.le_iff_toNat_le] at h ⊢
  have hA : 'A'.val.toNat = 65 := rfl
  have hZ : 'Z'.val.toNat = 90 := rfl
  have ha : 'a'.val.toNat = 97 := rfl
  have hz : 'z'.val.toNat = 122 := rfl
  omega

/-- A character equal, ignoring case, to an upper-case ASCII letter may start a name. -/
theorem isNameStart_of_foldEq {c a : Char} (ha : a.isUpper = true) (h : foldEq c a = true) :
    isNameStart c = true := by
  have halpha : a.isAlpha = true := by simp [Char.isAlpha, ha]
  simp only [foldEq, Bool.or_eq_true, Bool.and_eq_true, beq_iff_eq, decide_eq_true_eq] at h
  rcases h with ((rfl | ⟨hlow, _⟩) | ⟨_, rfl⟩) | ⟨_, rfl⟩
  · exact isNameStart_of_isAlpha halpha
  · -- folding keeps a character alphabetic, so `c` is a letter as `a` is
    refine isNameStart_of_isAlpha ?_
    rw [← Char.isAlpha_toLower_eq_isAlpha, hlow, Char.isAlpha_toLower_eq_isAlpha, halpha]
  · decide
  · decide

/-- Upper-casing a character keeps it equal, ignoring case, to the same upper-case letters. -/
theorem foldEq_toUpper {c a : Char} (ha : a.isUpper = true) :
    foldEq c.toUpper a = foldEq c a := by
  by_cases hc : c.isLower
  · -- `c` and its upper case are ASCII, so only the folded comparison can hold on either side
    have hup : c.toUpper.isUpper = true := by simp [Char.isAlpha, hc]
    have hne : c ≠ a := fun h => Char.not_isLower_of_isUpper ha (h ▸ hc)
    have hiff : c.toUpper = a ↔ c.toLower = a.toLower := by
      constructor
      · intro h; rw [← h, Char.toLower_toUpper_eq_toLower]
      · intro h
        rw [← Char.toUpper_toLower_eq_toUpper, h, Char.toUpper_toLower_eq_toUpper,
          Char.toUpper_eq_of_not_isLower (Char.not_isLower_of_isUpper ha)]
    have hc₁ := toNat_lt_of_isLower hc
    have hc₂ := toNat_lt_of_isUpper hup
    have hK : ∀ d : Char, d.toNat < 128 → d ≠ 'K' := fun d hd h => by
      subst h; exact absurd hd (by decide)
    have hS : ∀ d : Char, d.toNat < 128 → d ≠ 'ſ' := fun d hd h => by
      subst h; exact absurd hd (by decide)
    rw [Bool.eq_iff_iff]
    simp [foldEq, hiff, hne, hc₁, hc₂, hK _ hc₁, hK _ hc₂, hS _ hc₁, hS _ hc₂]
  · rw [Char.toUpper_eq_of_not_isLower hc]

theorem foldEqWord_map_toUpper {cs ws : List Char} (hws : ∀ a ∈ ws, a.isUpper = true) :
    foldEqWord (cs.map Char.toUpper) ws = foldEqWord cs ws := by
  induction cs generalizing ws with
  | nil => cases ws <;> rfl
  | cons c cs ih =>
    cases ws with
    | nil => rfl
    | cons a ws =>
      simp only [List.map_cons, foldEqWord]
      rw [foldEq_toUpper (hws a (by simp)), ih fun a' ha' => hws a' (by simp [ha'])]

theorem foldEqWord_take_of_foldPrefix {t w : List Char} (h : foldPrefix t w = true) :
    foldEqWord (t.take w.length) w = true := by
  induction w generalizing t with
  | nil => simp [foldEqWord]
  | cons a w ih =>
    cases t with
    | nil => simp [foldPrefix] at h
    | cons c t =>
      simp only [foldPrefix, Bool.and_eq_true] at h
      simp [foldEqWord, h.1, ih h.2]

theorem isNameStart_of_foldEqWord {cs ws : List Char} (hws : ∀ a ∈ ws, a.isUpper = true)
    (h : foldEqWord cs ws = true) : ∀ c ∈ cs, isNameStart c = true := by
  induction cs generalizing ws with
  | nil => simp
  | cons c cs ih =>
    cases ws with
    | nil => simp [foldEqWord] at h
    | cons a ws =>
      simp only [foldEqWord, Bool.and_eq_true] at h
      intro c' hc'
      rcases List.mem_cons.1 hc' with rfl | hc'
      · exact isNameStart_of_foldEq (hws a (by simp)) h.1
      · exact ih (fun a' ha' => hws a' (by simp [ha'])) h.2 c' hc'

/-! ## Shapes -/

/-- The connectives a bound clause may hold: the lexer's connectives and the three words
`NULL`, `TRUE` and `FALSE`. -/
def connectiveWords : List String :=
  ["AND", "OR", "IN", "LIKE", "IS", "NOT", "BETWEEN", "NULL", "TRUE", "FALSE"]

/-- A connective as the lexer writes it: no lower-case ASCII letter, and equal, ignoring case,
to a connective word. -/
def IsConnective (w : List Char) : Prop :=
  (∀ c ∈ w, c.isLower = false) ∧ ∃ k ∈ connectiveWords, foldEqWord w k.toList = true

/-- One part of a name: a letter or `_`, then letters, digits, `_` or `$`. -/
def IsNamePart (p : List Char) : Prop :=
  ∃ c cs, p = c :: cs ∧ isNameStart c = true ∧ ∀ d ∈ cs, isNameChar d = true

/-- A name: one part or more, separated by single dots. -/
def IsDottedName (w : List Char) : Prop :=
  ∃ parts : List (List Char), parts ≠ [] ∧ (∀ p ∈ parts, IsNamePart p) ∧
    w = ['.'].intercalate parts

theorem IsNamePart.isNameChar {p : List Char} (h : IsNamePart p) :
    ∀ d ∈ p, isNameChar d = true := by
  obtain ⟨c, cs, rfl, hc, hcs⟩ := h
  intro d hd
  rcases List.mem_cons.1 hd with rfl | hd
  · exact isNameChar_of_isNameStart hc
  · exact hcs d hd

theorem IsNamePart.not_dot {p : List Char} (h : IsNamePart p) : '.' ∉ p := fun hd =>
  absurd (h.isNameChar '.' hd) (by decide)

theorem IsConnective.isNameStart {w : List Char} (h : IsConnective w) :
    ∀ c ∈ w, isNameStart c = true := by
  obtain ⟨_, k, hk, hw⟩ := h
  refine isNameStart_of_foldEqWord ?_ hw
  simp only [connectiveWords, List.mem_cons, List.not_mem_nil, or_false] at hk
  rcases hk with rfl | rfl | rfl | rfl | rfl | rfl | rfl | rfl | rfl | rfl <;> simp

/-- The first part of a name followed by its further dotted parts is a dotted name. -/
theorem intercalate_dot_cons (p : List Char) (parts : List (List Char)) :
    p ++ (parts.map ('.' :: ·)).flatten = ['.'].intercalate (p :: parts) := by
  induction parts generalizing p with
  | nil => simp
  | cons q parts ih =>
    rw [List.intercalate_cons_cons, ← ih q]
    simp

theorem takeWhile_append_drop (p : Char → Bool) (l : List Char) :
    l.takeWhile p ++ l.drop (l.takeWhile p).length = l := by
  induction l with
  | nil => rfl
  | cons a l ih => by_cases h : p a <;> simp [h, ih]

theorem take_takeWhile_length_add (p : Char → Bool) (l : List Char) (i : Nat) :
    l.take ((l.takeWhile p).length + i) =
      l.takeWhile p ++ (l.drop (l.takeWhile p).length).take i := by
  rw [List.take_add]
  congr 1
  have h := congrArg (List.take (l.takeWhile p).length) (takeWhile_append_drop p l)
  rw [List.take_left' rfl] at h
  exact h.symm

/-- The further parts of a name read by `nameParts` are dotted name parts. -/
theorem nameParts_shape (u : List Char) :
    ∃ parts : List (List Char), (∀ p ∈ parts, IsNamePart p) ∧
      u.take (nameParts u) = (parts.map ('.' :: ·)).flatten := by
  fun_induction nameParts u with
  | case1 c rest hc more ih =>
    obtain ⟨parts, hparts, htake⟩ := ih
    have hsplit : rest = more ++ rest.drop more.length := (takeWhile_append_drop _ rest).symm
    refine ⟨(c :: more) :: parts, ?_, ?_⟩
    · intro p hp
      rcases List.mem_cons.1 hp with rfl | hp
      · exact ⟨c, more, rfl, hc, fun d hd => List.mem_takeWhile_imp hd⟩
      · exact hparts p hp
    · rw [show 2 + more.length + nameParts (rest.drop more.length) =
          (more.length + nameParts (rest.drop more.length)) + 1 + 1 by omega]
      simp only [List.take_succ_cons]
      conv_lhs => rw [hsplit]
      rw [List.take_length_add_append]
      simp [htake]
  | case2 c rest hc => exact ⟨[], by simp, by simp⟩
  | case3 x hx => exact ⟨[], by simp, by simp⟩

/-- A name read by `nameLength` is a dotted name. -/
theorem nameLength_shape {t : List Char} {n : Nat} (h : nameLength t = some n) :
    IsDottedName (t.take n) := by
  match t, h with
  | c :: rest, h =>
    simp only [nameLength] at h
    split at h
    · rename_i hc
      cases h
      obtain ⟨parts, hparts, htake⟩ := nameParts_shape (rest.drop (rest.takeWhile isNameChar).length)
      refine ⟨(c :: rest.takeWhile isNameChar) :: parts, by simp, ?_, ?_⟩
      · intro p hp
        rcases List.mem_cons.1 hp with rfl | hp
        · exact ⟨c, _, rfl, hc, fun d hd => List.mem_takeWhile_imp hd⟩
        · exact hparts p hp
      · rw [← intercalate_dot_cons, ← htake,
          show 1 + (rest.takeWhile isNameChar).length + nameParts (rest.drop
            (rest.takeWhile isNameChar).length) = ((rest.takeWhile isNameChar).length +
            nameParts (rest.drop (rest.takeWhile isNameChar).length)) + 1 by omega,
          List.take_succ_cons, take_takeWhile_length_add, List.cons_append]
    · cases h

theorem IsDottedName.head {w : List Char} (h : IsDottedName w) :
    ∃ c cs, w = c :: cs ∧ isNameStart c = true := by
  obtain ⟨parts, hne, hparts, rfl⟩ := h
  obtain ⟨p, parts, rfl⟩ := List.exists_cons_of_ne_nil hne
  obtain ⟨c, cs, rfl, hc, -⟩ := hparts p (by simp)
  rw [← intercalate_dot_cons]
  exact ⟨c, _, rfl, hc⟩

theorem isNameStart_toLower {c : Char} (h : isNameStart c = true) :
    isNameStart c.toLower = true := by
  rcases isNameChar_cases (isNameChar_of_isNameStart h) with hc | rfl | rfl
  · exact ascii_forall (fun c => isNameStart c = true → isNameStart c.toLower = true)
      (by decide) hc h
  · decide
  · decide

theorem isNameChar_toLower {c : Char} (h : isNameChar c = true) :
    isNameChar c.toLower = true := by
  rcases isNameChar_cases h with hc | rfl | rfl
  · exact ascii_forall (fun c => isNameChar c = true → isNameChar c.toLower = true)
      (by decide) hc h
  · decide
  · decide

/-- Words equal ignoring ASCII case have the same ASCII upper case. -/
theorem map_toUpper_eq_of_asciiLower_eq {w k : String} (h : asciiLower k = asciiLower w) :
    w.toList.map Char.toUpper = k.toList.map Char.toUpper := by
  have h' := congrArg (fun s : String => s.toList.map Char.toUpper) h
  simpa [asciiLower, String.toList_map, List.map_map, Function.comp_def] using h'.symm

theorem clauseWords_map_toLower : ∀ k ∈ Lexicon.clauseWords,
    k.toList.map Char.toLower = k.toList := by
  simp [Lexicon.clauseWords]

/-- A clause word that starts like a name is, upper-cased, a connective. -/
theorem isConnective_of_clauseWord {k : String} (hk : k ∈ Lexicon.clauseWords)
    (hs : ∀ c ∈ k.toList.head?, isNameStart c = true) :
    IsConnective (k.toList.map Char.toUpper) := by
  refine ⟨by simp, ?_⟩
  simp only [Lexicon.clauseWords, List.mem_cons, List.not_mem_nil, or_false] at hk
  rcases hk with rfl | rfl | rfl | rfl | rfl | rfl | rfl | rfl | rfl | rfl | rfl | rfl |
    rfl | rfl | rfl | rfl | rfl | rfl | rfl <;>
    simp [isNameStart, connectiveWords, foldEqWord, foldEq] at hs ⊢

/-- A name the lexer reads as a clause word is a connective once upper-cased. -/
theorem isConnective_upper_of_isClauseWord {w : String} (hw : IsDottedName w.toList)
    (hc : Lexicon.isClauseWord w = true) : IsConnective (asciiUpper w).toList := by
  simp only [Lexicon.isClauseWord, Lexicon.memIgnoreCase, List.any_eq_true,
    eqIgnoreAsciiCase, beq_iff_eq] at hc
  obtain ⟨k, hk, heq⟩ := hc
  obtain ⟨c, cs, hwc, hstart⟩ := hw.head
  have hkw : k.toList = w.toList.map Char.toLower := by
    have := congrArg String.toList heq
    simpa [asciiLower, String.toList_map, clauseWords_map_toLower k hk] using this
  rw [asciiUpper, String.toList_map, map_toUpper_eq_of_asciiLower_eq heq]
  refine isConnective_of_clauseWord hk fun d hd => ?_
  rw [hkw, hwc] at hd
  simp only [List.map_cons, List.head?_cons, Option.mem_def, Option.some.injEq] at hd
  rw [← hd]
  exact isNameStart_toLower hstart

theorem connectives_upper : ∀ w ∈ connectives, ∀ a ∈ w.toList, a.isUpper = true := by
  simp [connectives]

/-- A connective read by `connectiveLength`, upper-cased, is a connective. -/
theorem connectiveLength_shape {prev : Option Char} {t : List Char} {n : Nat}
    (h : connectiveLength prev t = some n) : IsConnective ((t.take n).map Char.toUpper) := by
  simp only [connectiveLength] at h
  split at h
  · cases h
  · obtain ⟨w, hw, hsome⟩ := List.exists_of_findSome?_eq_some h
    split at hsome
    · rename_i hcond
      cases hsome
      simp only [Bool.and_eq_true] at hcond
      refine ⟨fun c hc => ?_, w, ?_, ?_⟩
      · obtain ⟨d, -, rfl⟩ := List.mem_map.1 hc
        exact Char.isLower_toUpper_eq_false d
      · simp only [connectives, List.mem_cons, List.not_mem_nil, or_false] at hw
        simp only [connectiveWords, List.mem_cons, List.not_mem_nil, or_false]
        tauto
      · rw [foldEqWord_map_toUpper (connectives_upper w hw), ← String.length_toList]
        exact foldEqWord_take_of_foldPrefix hcond.1
    · cases hsome

end Lex

namespace Lexeme

/-- What a lexeme may look like, by its kind.  Strings and numbers may hold anything. -/
def Shaped (l : Lexeme) : Prop :=
  match l.kind with
  | .literal => True
  | .operator => l.text ∈ Lex.comparisons
  | .punctuation => l.text ∈ ["(", ")", ","]
  | .keyword => Lex.IsConnective l.text.toList
  | .identifier => Lex.IsDottedName l.text.toList

end Lexeme

namespace Lex

open Text

/-- Every lexeme that starts a text has its kind's shape. -/
theorem lexemeAt_shaped {prev : Option Char} {t : List Char} {l : Lexeme} {n : Nat}
    (h : lexemeAt prev t = some (l, n)) : l.Shaped := by
  unfold lexemeAt at h
  split at h
  · cases h; trivial
  · split at h
    · cases h; trivial
    · split at h
      · -- a comparison
        rename_i op hop
        cases h
        exact List.mem_of_find?_eq_some hop
      · split at h
        · rename_i c rest _ _ _
          split at h
          · -- a parenthesis or a comma
            rename_i hp
            cases h
            simp only [Bool.or_eq_true, beq_iff_eq] at hp
            rcases hp with (rfl | rfl) | rfl <;> simp [Lexeme.Shaped]
          · split at h
            · rename_i m hm
              cases h
              show IsConnective (asciiUpper (String.ofList _)).toList
              rw [asciiUpper, String.toList_map, String.toList_ofList]
              exact connectiveLength_shape hm
            · split at h
              · rename_i m hm
                have hname := nameLength_shape hm
                dsimp only at h
                split at h
                · cases h
                  exact isConnective_upper_of_isClauseWord (by simpa using hname) ‹_›
                · cases h
                  simpa [Lexeme.Shaped] using hname
              · split at h
                · cases h; trivial
                · cases h
        · cases h

/-- Every lexeme the lexer returns has its kind's shape. -/
theorem go_shaped {prev : Option Char} {gap t : List Char} {ls : List Lexeme}
    (h : go prev gap t = .ok ls) : ∀ l ∈ ls, l.Shaped := by
  fun_induction go prev gap t generalizing ls with
  | case1 prev gap =>
    cases hc : checkGap gap.reverse with
    | error e => simp [hc, Except.map] at h
    | ok u =>
      simp only [hc, Except.map, Except.ok.injEq] at h
      simp [← h]
  | case2 prev gap c cs l n hlex e hgap =>
    simp only [List.unattach_reverse, List.unattach_attach] at hgap
    simp [hgap] at h
  | case3 prev gap c cs l n hlex hgap _ _ _ | case4 prev gap c cs l n hlex hgap _ _ _ =>
    -- the lexeme found here, then those of the rest
    rename_i ih
    simp only [List.unattach_reverse, List.unattach_attach] at hgap
    rw [hgap] at h
    dsimp only at h
    split at h
    · rename_i rest hrest
      cases h
      intro l' hl'
      rcases List.mem_cons.1 hl' with rfl | hl'
      · exact lexemeAt_shaped hlex
      · exact ih hrest l' hl'
    · cases h
  | case5 prev gap c cs hnone ih => exact ih h

end Lex

/-- Every lexeme of a fragment the lexer accepts has its kind's shape. -/
theorem Lexeme.lex_shaped {fragment : String} {ls : List Lexeme}
    (h : Lexeme.lex fragment = .ok ls) : ∀ l ∈ ls, l.Shaped :=
  Lex.go_shaped h

end QueryShield
