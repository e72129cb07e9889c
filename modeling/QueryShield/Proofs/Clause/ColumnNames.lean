import Mathlib
import QueryShield.Name.Quote
import QueryShield.Proofs.Clause.Grammar
import QueryShield.Proofs.Clause.Composition
import QueryShield.Proofs.Clause.Spans

/-!
# A column name on its own and in a clause

A column name reaches statement text in two ways.  On its own, `Name.quoteColumn` checks its
alphabet and puts it in backticks: at once when it is a reserved word other than a statement
word, and otherwise once the screen has passed it.  Inside a bound clause the lexer reads it as a
name and `namePart` writes it: in backticks when it is a reserved word that is neither a logic
word nor a statement word, and otherwise bare, once the same screen has passed it.

The main result, `quoteColumn_agrees_with_clause`, says that the two agree on every plain column
name (an ASCII letter or `_`, then ASCII letters, digits, `_` or `$`) that is not a logic word:
quoting it succeeds exactly when binding the clause `n = 1` does, and the clause then writes the
name bare or exactly as quoting does.  Outside the logic words the two quoting conditions are the
same (`Name.quoteColumn_namePart`), so what is left is the lexer.  It reads such a name as one
name (`Lex.lex_plainColumn`) unless the name starts with a connective, and a connective there is
the whole name, which makes it a logic word, or stands before a `$`
(`Lex.connectiveLength_plainColumn`).  Then both sides refuse: no lexeme starts at the `$`
(`Lex.go_error_of_dollar`), and the screen finds the connective in a name that, holding a `$`, is
no reserved word (`Name.quoteColumn_ne_ok_of_dollar`).

The logic words fall outside: `xor` is a reserved word, quoted on its own, but in a clause it is
screened and refused (`quoteColumn_xor_refused_in_clause`).
-/

namespace QueryShield
namespace Name

open Text

/-- A column name as callers write one: an ASCII letter or `_`, then ASCII letters, digits,
`_` or `$`. -/
def IsPlainColumn (n : List Char) : Prop :=
  ∃ c cs, n = c :: cs ∧ (c.isAlpha = true ∨ c = '_') ∧ ∀ d ∈ cs, isNameChar d = true

/-! ## Characters -/

theorem toNat_lt_of_isNameChar {d : Char} (h : isNameChar d = true) : d.toNat < 128 := by
  simp only [isNameChar, Bool.or_eq_true, Bool.and_eq_true, decide_eq_true_eq, beq_iff_eq] at h
  rcases h with (⟨h, -⟩ | rfl) | rfl
  · exact h
  · decide
  · decide

/-- What the lexer, the word search and the clause checks see of a name character: a name
character to the lexer, a word character unless it is `$`, and none of the characters that
the checks count or that end a name. -/
theorem isNameChar_facts {d : Char} (h : isNameChar d = true) :
    Lex.isNameChar d = true ∧ (isWordChar d = false → d = '$') ∧ isBlank d = false ∧
      d ≠ '.' ∧ d ≠ '`' ∧ d ≠ '(' ∧ d ≠ ')' ∧ d ≠ '?' :=
  Lex.ascii_forall (fun d => isNameChar d = true → Lex.isNameChar d = true ∧
      (isWordChar d = false → d = '$') ∧ isBlank d = false ∧
      d ≠ '.' ∧ d ≠ '`' ∧ d ≠ '(' ∧ d ≠ ')' ∧ d ≠ '?')
    (by decide) (toNat_lt_of_isNameChar h) h

namespace IsPlainColumn

variable {n : List Char}

theorem isNameChar (hn : IsPlainColumn n) : ∀ d ∈ n, Name.isNameChar d = true := by
  obtain ⟨c, cs, rfl, hc, hcs⟩ := hn
  intro d hd
  rcases List.mem_cons.1 hd with rfl | hd
  · rcases hc with hc | rfl
    · have hlt : d.toNat < 128 := by
        rcases Bool.or_eq_true_iff.1 hc with hu | hl
        · exact Lex.toNat_lt_of_isUpper hu
        · exact Lex.toNat_lt_of_isLower hl
      simp [Name.isNameChar, Char.isAlphanum, hc, hlt]
    · rfl
  · exact hcs d hd

theorem isNamePart (hn : IsPlainColumn n) : Lex.IsNamePart n := by
  have hchars := hn.isNameChar
  obtain ⟨c, cs, rfl, hc, -⟩ := hn
  refine ⟨c, cs, rfl, ?_, fun d hd => (isNameChar_facts (hchars d (by simp [hd]))).1⟩
  rcases hc with hc | rfl
  · exact Lex.isNameStart_of_isAlpha hc
  · rfl

end IsPlainColumn

end Name

namespace Lex

open Text

/-- A connective found at the start of a text is one of the connectives, matched there with a
word boundary after it. -/
theorem connectiveLength_eq_some {prev : Option Char} {t : List Char} {m : Nat}
    (h : connectiveLength prev t = some m) :
    ∃ k ∈ connectives, m = k.length ∧
      (foldPrefix t k.toList && boundary ((t.take k.length).getLast?) (t.drop k.length)) = true := by
  unfold connectiveLength at h
  split at h
  · cases h
  · obtain ⟨k, hk, hsome⟩ := List.exists_of_findSome?_eq_some h
    dsimp only at hsome
    split at hsome
    · rename_i hcond
      cases hsome
      exact ⟨k, hk, rfl, hcond⟩
    · cases hsome

/-- Where a plain column name followed by a space starts with a connective, the connective is
the whole name, or the part before a `$`: every other name character is a word character, and
the space cannot be part of a connective. -/
theorem connectiveLength_plainColumn {n rest : List Char} (hn : Name.IsPlainColumn n)
    (hrest : rest.head? = some ' ') :
    connectiveLength none (n ++ rest) = none ∨
      (∃ k ∈ connectives, n.map foldKey = k.toList.map Char.toLower) ∨
      ∃ u v, n = u ++ '$' :: v ∧ u ≠ [] ∧ (∀ c ∈ u, isNameStart c = true) ∧
        ∃ k ∈ connectives, u.map foldKey = k.toList.map Char.toLower := by
  cases h : connectiveLength none (n ++ rest) with
  | none => exact .inl rfl
  | some m =>
    right
    obtain ⟨k, hk, -, hcond⟩ := connectiveLength_eq_some h
    obtain ⟨hmap, -, hstart, hnext⟩ := connective_match hk hcond
    have hpos : 0 < k.length := by
      rw [← String.length_toList]
      exact List.length_pos_of_ne_nil (connectives_letters k hk).1
    rcases lt_trichotomy k.length n.length with hlt | heq | hgt
    · -- the character after the connective is no word character, so it is the `$`
      right
      have hdrop : (n ++ rest).drop k.length = n[k.length] :: (n.drop (k.length + 1) ++ rest) := by
        rw [List.drop_append_of_le_length hlt.le, List.drop_eq_getElem_cons hlt, List.cons_append]
      have hdollar : n[k.length] = '$' :=
        (Name.isNameChar_facts (hn.isNameChar _ (List.getElem_mem hlt))).2.1
          (hnext _ (by rw [hdrop]; rfl))
      rw [List.take_append_of_le_length hlt.le] at hmap hstart
      refine ⟨n.take k.length, n.drop (k.length + 1), ?_, ?_, hstart, k, hk, hmap⟩
      · rw [← hdollar, ← List.drop_eq_getElem_cons hlt, List.take_append_drop]
      · exact List.ne_nil_of_length_pos (by simp; omega)
    · left
      rw [heq, List.take_left] at hmap
      exact ⟨k, hk, hmap⟩
    · -- the space after the name would be part of the connective
      exfalso
      obtain ⟨r, rfl⟩ : ∃ r, rest = ' ' :: r := by
        cases rest with
        | nil => cases hrest
        | cons c r => cases hrest; exact ⟨r, rfl⟩
      have hspace : ' ' ∈ (n ++ ' ' :: r).take k.length := by
        rw [List.take_append, List.mem_append]
        right
        obtain ⟨j, hj⟩ : ∃ j, k.length - n.length = j + 1 := ⟨k.length - n.length - 1, by omega⟩
        simp [hj]
      exact absurd (hstart ' ' hspace) (by decide)

/-! ## The lexer at a column name -/

/-- Once a skipped stretch holds a character that is not blank, the lexer refuses the text. -/
theorem go_error_of_gap {prev : Option Char} {gap t : List Char}
    (h : ¬∀ c ∈ gap, isBlank c = true) : ∃ e, go prev gap t = .error e := by
  have hrev : ∀ {g : List Char}, ¬(∀ c ∈ g, isBlank c = true) → ¬∀ c ∈ g.reverse, isBlank c = true :=
    fun hg hall => hg fun c hc => hall c (List.mem_reverse.2 hc)
  fun_induction go prev gap t with
  | case1 =>
    rw [checkGap_not_blank (hrev h)]
    exact ⟨_, rfl⟩
  | case5 _ _ c _ _ ih => exact ih fun hall => h fun d hd => hall d (List.mem_cons_of_mem c hd)
  | case2 | case3 | case4 =>
    -- a lexeme is found, and the stretch skipped before it is looked at first
    rw [checkGap_not_blank (hrev h)]
    exact ⟨_, rfl⟩

/-- A lexeme found after blanks is the first lexeme, and the lexer goes on after it. -/
theorem go_chunk {prev : Option Char} {gap chunk rest : List Char} {l : Lexeme}
    (hgap : ∀ c ∈ gap, isBlank c = true) (hne : chunk ≠ [])
    (hlex : lexemeAt prev (chunk ++ rest) = some (l, chunk.length)) :
    go prev gap (chunk ++ rest) = (go chunk.getLast? [] rest).map (l :: ·) := by
  obtain ⟨c, cs, rfl⟩ := List.exists_cons_of_ne_nil hne
  rw [List.cons_append] at hlex ⊢
  conv_lhs => rw [go]
  have htake : (c :: (cs ++ rest)).take (cs.length + 1) = c :: cs := by
    rw [← List.length_cons, ← List.cons_append, List.take_left]
  have hlast : ((c :: cs).getLast?.orElse fun _ => prev) = (c :: cs).getLast? := by
    rw [List.getLast?_eq_some_getLast (by simp)]
    rfl
  have hgap' : checkGap gap.reverse = .ok () := checkGap_blank (by simpa using hgap)
  simp only [hlex, hgap', List.length_cons, htake, hlast, Nat.add_sub_cancel, List.drop_left]
  cases go (c :: cs).getLast? [] rest <;> rfl

/-- A character where no lexeme starts is skipped. -/
theorem go_skip {prev : Option Char} {gap : List Char} {c : Char} {t : List Char}
    (h : lexemeAt prev (c :: t) = none) : go prev gap (c :: t) = go (some c) (c :: gap) t := by
  conv_lhs => rw [go]
  simp only [h]

/-- No lexeme starts at a `$`. -/
theorem lexemeAt_dollar (prev : Option Char) (t : List Char) : lexemeAt prev ('$' :: t) = none :=
  lexemeAt_none (by simp [PlainStart, comparisonChars])
    (connectiveLength_eq_none (by simp [isNameStart])) (nameLength_eq_none (by simp [isNameStart]))
    (by simp [numberLength, isDecimalDigit])

/-- The comparison with one, after a column name. -/
theorem go_equals_one (prev : Option Char) :
    go prev [] " = 1".toList = .ok [⟨"=", .operator⟩, ⟨"1", .literal⟩] := by
  have hchars : " = 1".toList = ' ' :: (['='] ++ ' ' :: (['1'] ++ [])) := by simp
  have hspace : ∀ c ∈ [' '], isBlank c = true := fun c hc => by
    rw [List.mem_singleton.1 hc]
    decide
  have hequals : lexemeAt (some ' ') (['='] ++ ' ' :: (['1'] ++ [])) =
      some (⟨"=", .operator⟩, ['='].length) :=
    lexemeAt_comparison _ (by simp) (by decide)
  have hone : IsNumberText ['1'] :=
    ⟨[], ['1'], [], by simp, .inl rfl, by simp, fun c hc => by rw [List.mem_singleton.1 hc]; rfl, .inl rfl⟩
  rw [hchars, go_space, go_chunk hspace (by simp) hequals, go_space,
    go_chunk hspace (by simp) (lexemeAt_number hone (by simp [Separated])), go_nil (by simp)]
  rfl

/-- A plain column name that starts with no connective and is no clause word is read as a
name, followed by the comparison with one. -/
theorem lex_plainColumn {n : String} (hn : Name.IsPlainColumn n.toList)
    (hconn : connectiveLength none (n.toList ++ " = 1".toList) = none)
    (hclause : Lexicon.isClauseWord n = false) :
    Lexeme.lex (n ++ " = 1") = .ok [⟨n, .identifier⟩, ⟨"=", .operator⟩, ⟨"1", .literal⟩] := by
  have hpart := hn.isNamePart
  obtain ⟨c, cs, hcs, hc, -⟩ := hpart
  have hname : nameLength (n.toList ++ " = 1".toList) = some n.toList.length :=
    nameLength_dotted ⟨[n.toList], by simp, by simpa using hn.isNamePart, by simp⟩
      (by simp [isNameChar, isNameStart])
  have hlex : lexemeAt none (n.toList ++ " = 1".toList) = some (⟨n, .identifier⟩, n.toList.length) := by
    rw [hcs, List.cons_append] at hname hconn
    rw [hcs, List.cons_append, lexemeAt_name (isNameStart_plain hc) hconn hname, ← List.cons_append,
      ← hcs, List.take_left, String.ofList_toList, hclause]
    rfl
  rw [Lexeme.lex, String.toList_append, go_chunk (by simp) (by simp [hcs]) hlex, go_equals_one]
  rfl

/-- A text that starts with a connective glued by a `$` to more name characters is refused: the
connective is read, and the `$` after it starts no lexeme. -/
theorem go_error_of_dollar {u v : List Char} (hne : u ≠ []) (hstart : ∀ c ∈ u, isNameStart c = true)
    {k : String} (hk : k ∈ connectives) (hu : u.map foldKey = k.toList.map Char.toLower) :
    ∃ e, go none [] (u ++ '$' :: v) = .error e := by
  obtain ⟨k', hfind⟩ : ∃ k', connectives.find? (fun k => u.map foldKey == k.toList.map Char.toLower) =
      some k' :=
    Option.isSome_iff_exists.1 (List.find?_isSome.2 ⟨k, hk, by simp [hu]⟩)
  have hlen : k'.length = u.length := by
    have hk' := List.find?_some hfind
    rw [beq_iff_eq] at hk'
    rw [← String.length_toList, ← List.length_map (f := Char.toLower), ← hk', List.length_map]
  have hconn : connectiveLength none (u ++ '$' :: v) = some u.length := by
    rw [connectiveLength_word (by simp) hne hstart (by simp [isNameStart]; decide), hfind,
      Option.map_some, hlen]
  obtain ⟨c, cs, rfl⟩ := List.exists_cons_of_ne_nil hne
  rw [List.cons_append] at hconn
  have hlex := lexemeAt_connective (isNameStart_plain (hstart c (by simp))) hconn
  rw [← List.cons_append] at hlex
  obtain ⟨e, he⟩ := @go_error_of_gap (some '$') ['$'] v (by simp [isBlank]; decide)
  refine ⟨e, ?_⟩
  rw [go_chunk (by simp) hne hlex, go_skip (lexemeAt_dollar _ _), he]
  rfl

end Lex

/-! ## Words -/

theorem Text.foldKey_of_lt {c : Char} (hc : c.toNat < 128) : Text.foldKey c = c.toLower := by
  have hk : c ≠ '\u212A' := fun h => absurd (h ▸ hc) (by decide)
  have hs : c ≠ '\u017F' := fun h => absurd (h ▸ hc) (by decide)
  simp only [Text.foldKey, hk, hs, if_false]

namespace Lexicon

open Text

theorem connectives_logic :
    ∀ k ∈ Lex.connectives, String.ofList (k.toList.map Char.toLower) ∈ logicWords := by
  simp only [Lex.connectives, List.mem_cons, List.not_mem_nil, or_false, forall_eq_or_imp, forall_eq]
  decide

/-- An ASCII word that folds to a connective is a logic word. -/
theorem isLogicWord_of_fold {w : List Char} (hascii : ∀ c ∈ w, c.toNat < 128) {k : String}
    (hk : k ∈ Lex.connectives) (h : w.map foldKey = k.toList.map Char.toLower) :
    isLogicWord (String.ofList w) = true := by
  have hlow : w.map Char.toLower = k.toList.map Char.toLower := by
    rw [← h]
    exact List.map_congr_left fun c hc => (foldKey_of_lt (hascii c hc)).symm
  simp only [isLogicWord, memIgnoreCase, List.any_eq_true, eqIgnoreAsciiCase, beq_iff_eq]
  refine ⟨_, connectives_logic k hk, ?_⟩
  rw [asciiLower, asciiLower, ← String.toList_inj, String.toList_map, String.toList_map,
    String.toList_ofList, String.toList_ofList, hlow, List.map_map]
  simp [Function.comp_def, Char.toLower_toLower_eq_toLower]

/-- A word that starts like a name and is a clause word is a logic word: the other clause words
are punctuation and comparisons. -/
theorem isLogicWord_of_isClauseWord {w : String} (hw : ∀ c ∈ w.toList.head?, Lex.isNameStart c = true)
    (h : isClauseWord w = true) : isLogicWord w = true := by
  simp only [isClauseWord, memIgnoreCase, List.any_eq_true, eqIgnoreAsciiCase, beq_iff_eq] at h
  obtain ⟨k, hk, heq⟩ := h
  have hkw : k.toList = w.toList.map Char.toLower := by
    have := congrArg String.toList heq
    simpa [asciiLower, String.toList_map, Lex.clauseWords_map_toLower k hk] using this
  have hstart : ∀ c ∈ k.toList.head?, Lex.isNameStart c = true := by
    intro c hc
    rw [hkw, List.head?_map] at hc
    obtain ⟨d, hd, rfl⟩ := Option.mem_map.1 hc
    exact Lex.isNameStart_toLower (hw d hd)
  have hlogic : k ∈ logicWords := by
    simp only [clauseWords, List.mem_cons, List.not_mem_nil, or_false] at hk
    rcases hk with rfl | rfl | rfl | rfl | rfl | rfl | rfl | rfl | rfl | rfl | rfl | rfl |
      rfl | rfl | rfl | rfl | rfl | rfl | rfl <;>
      simp [Lex.isNameStart, logicWords] at hstart ⊢
  simp only [isLogicWord, memIgnoreCase, List.any_eq_true, eqIgnoreAsciiCase, beq_iff_eq]
  exact ⟨k, hlogic, heq⟩

set_option maxRecDepth 20000 in
/-- No reserved word holds a `$`, so no word that does is reserved. -/
theorem isReserved_eq_false_of_dollar {w : String} (hw : '$' ∈ w.toList) : isReserved w = false := by
  have hall : reservedWords.all (fun k => !k.toList.contains '$') = true := by decide
  rw [Bool.eq_false_iff]
  intro h
  simp only [isReserved, memIgnoreCase, List.any_eq_true, eqIgnoreAsciiCase, beq_iff_eq] at h
  obtain ⟨k, hk, heq⟩ := h
  have hlow : '$' ∈ (asciiLower w).toList := by
    rw [asciiLower, String.toList_map]
    exact List.mem_map.2 ⟨'$', hw, rfl⟩
  rw [← heq, asciiLower, String.toList_map] at hlow
  obtain ⟨c, hc, hcd⟩ := List.mem_map.1 hlow
  -- only a `$` lower-cases to a `$`
  have hdollar : c = '$' := by
    by_cases hlt : c.toNat < 128
    · exact Lex.ascii_forall (fun c => c.toLower = '$' → c = '$') (by decide) hlt hcd
    · rwa [toLower_eq_self_of_ge hlt] at hcd
  have hno := List.all_eq_true.1 hall k hk
  rw [hdollar] at hc
  simp [hc] at hno

end Lexicon

/-! ## Quoting a plain column name -/

namespace Name

open Text

variable {n : String}

theorem normalize_plain (hn : IsPlainColumn n.toList) : normalize n = n := by
  have hchars := hn.isNameChar
  have htrim : trim n = n := by
    rw [trim, trimChars_eq_self fun d hd => (isNameChar_facts (hchars d hd)).2.2.1,
      String.ofList_toList]
  obtain ⟨c, cs, hcs, -, -⟩ := hn
  have hc : c ≠ '`' := (isNameChar_facts (hchars c (by simp [hcs]))).2.2.2.2.1
  unfold normalize
  simp [htrim, hcs, hc]

theorem checkAlphabet_plain (hn : IsPlainColumn n.toList) : checkAlphabet n = .ok () := by
  have hchars := hn.isNameChar
  obtain ⟨c, cs, hcs, -, -⟩ := hn
  have hne : n.isEmpty = false := by
    rw [Bool.eq_false_iff, ne_eq, String.isEmpty_iff]
    rintro rfl
    simp at hcs
  unfold checkAlphabet
  rw [if_neg (by simp [hne]), if_pos (List.all_eq_true.2 hchars)]

/-- A plain column name is quoted at once when it is a reserved word other than a statement
word, and otherwise when the screen passes it. -/
theorem quoteColumn_plain (hn : IsPlainColumn n.toList) :
    quoteColumn n =
      if (!Lexicon.isStatementWord n && Lexicon.isReserved n) = true then .ok ("`" ++ n ++ "`")
      else (Screen.ensureSafe n Families.symbolsAndKeywords).map fun _ => "`" ++ n ++ "`" := by
  unfold quoteColumn
  rw [normalize_plain hn]
  dsimp only
  rw [checkAlphabet_plain hn]
  split
  · rfl
  · cases Screen.ensureSafe n Families.symbolsAndKeywords <;> rfl

end Name

/-! ## Binding the clause `n = 1` -/

namespace BoundClause

open Text

/-- Outside the logic words, a name part is quoted exactly when quoting a column would quote it
at once, and otherwise written bare when the screen passes it. -/
theorem namePart_of_not_logic {p : String} (hlogic : Lexicon.isLogicWord p = false) :
    namePart p =
      if (!Lexicon.isStatementWord p && Lexicon.isReserved p) = true then .ok ("`" ++ p ++ "`")
      else (Screen.ensureSafe p Families.symbolsAndKeywords).map fun _ => p := by
  unfold namePart
  rw [Lexicon.needsQuoting, hlogic, Bool.not_false, Bool.and_true]
  split
  · rfl
  · cases Screen.ensureSafe p Families.symbolsAndKeywords <;> rfl

theorem nameText_of_no_dot {w : String} (h : '.' ∉ w.toList) : nameText w = namePart w := by
  have hsplit : w.toList.splitOn '.' = [w.toList] := by
    simpa using List.splitOn_intercalate '.'
      (fun p (hp : p ∈ [w.toList]) => by rw [List.mem_singleton.1 hp]; exact h) (List.cons_ne_nil _ _)
  unfold nameText
  rw [hsplit]
  cases h : namePart w <;> simp [String.ofList_toList, h]

/-- A name compared with a placeholder is written with no space on either side of the
comparison. -/
theorem joinPieces_comparison (t : String) :
    joinPieces [(t, .identifier), ("=", .operator), ("?", .literal)] = t ++ "=?" := by
  simp [joinPieces, String.append_assoc]

theorem ofFragment_column (clock : Stamp) {n : String}
    (hlex : Lexeme.lex (n ++ " = 1") = .ok [⟨n, .identifier⟩, ⟨"=", .operator⟩, ⟨"1", .literal⟩])
    (hdot : '.' ∉ n.toList) :
    ofFragment clock (n ++ " = 1") = (namePart n).map fun t => ⟨⟨t ++ "=?", [.int 1]⟩, false⟩ := by
  have hone : literalValue clock ⟨"1", .literal⟩ = .int 1 := by
    simp [literalValue, Lexeme.isQuoted, Datum.parseInt64?]
  unfold ofFragment
  rw [hlex]
  simp only [bind, Except.bind, List.foldlM, nameText_of_no_dot hdot]
  cases namePart n with
  | error e => rfl
  | ok t =>
    simp only [pure, Except.pure, Except.map, hone, List.reverse_cons, List.reverse_nil,
      List.nil_append, List.cons_append, joinPieces_comparison]

/-- A text with no placeholder of its own, followed by `=?`, has no placeholder before a quoted
name. -/
theorem placeholderBeforeQuotedName_equals {w : List Char} (hw : '?' ∉ w) :
    placeholderBeforeQuotedName (w ++ ['=', '?']) = false := by
  induction w with
  | nil => rfl
  | cons c w ih =>
    have hc : c ≠ '?' := fun h => hw (h ▸ List.mem_cons_self)
    rw [List.cons_append, placeholderBeforeQuotedName_cons,
      ih fun h => hw (List.mem_cons_of_mem c h)]
    simp [hc]

/-- The clause comparing a name with one placeholder passes the checks, when the name holds
no parenthesis and no placeholder. -/
theorem sanityCheck_comparison {t : String} (ht : ∀ c ∈ t.toList, c ≠ '(' ∧ c ≠ ')' ∧ c ≠ '?') :
    sanityCheck ⟨t ++ "=?", [.int 1]⟩ = .ok () := by
  have hopen : t.toList.count '(' = 0 := List.count_eq_zero.2 fun h => (ht _ h).1 rfl
  have hclose : t.toList.count ')' = 0 := List.count_eq_zero.2 fun h => (ht _ h).2.1 rfl
  have hmark : t.toList.count '?' = 0 := List.count_eq_zero.2 fun h => (ht _ h).2.2 rfl
  have hchars : (t ++ "=?").toList = t.toList ++ ['=', '?'] := by simp
  rw [sanityCheck_ok_iff]
  refine ⟨?_, ?_, ?_⟩
  · simp [balance, hchars, List.count_append, hopen, hclose]
  · rw [hchars]
    exact placeholderBeforeQuotedName_equals fun h => (ht _ h).2.2 rfl
  · simp [placeholderCount, hchars, List.count_append, hmark]

theorem namePart_ok {p t : String} (h : namePart p = .ok t) : t = p ∨ t = "`" ++ p ++ "`" := by
  unfold namePart at h
  split at h
  · cases h
    exact .inr rfl
  · split at h
    · cases h
      exact .inl rfl
    · cases h

theorem isBlankText_plain {n : String} (hn : Name.IsPlainColumn n.toList) (rest : String) :
    isBlankText (n ++ rest) = false := by
  have hchars := hn.isNameChar
  obtain ⟨c, cs, hcs, -, -⟩ := hn
  have hc : isBlank c = false := (Name.isNameChar_facts (hchars c (by simp [hcs]))).2.2.1
  simp [isBlankText, String.toList_append, hcs, hc]

/-- Where the lexer reads a plain column name as a name, the clause `n = 1` binds exactly when
the name part does, to the part compared with one placeholder. -/
theorem ofText_column_ok_iff (clock : Stamp) {n : String} (hn : Name.IsPlainColumn n.toList)
    (hlex : Lexeme.lex (n ++ " = 1") = .ok [⟨n, .identifier⟩, ⟨"=", .operator⟩, ⟨"1", .literal⟩])
    {c : BoundClause} :
    ofText clock (n ++ " = 1") = .ok c ↔ ∃ t, namePart n = .ok t ∧ c = ⟨t ++ "=?", [.int 1]⟩ := by
  have hchars := hn.isNameChar
  have hdot : '.' ∉ n.toList := fun h => (Name.isNameChar_facts (hchars _ h)).2.2.2.1 rfl
  rw [ofText_ok_iff (isBlankText_plain hn _), ofFragment_column clock hlex hdot]
  constructor
  · rintro ⟨p, hp, -, rfl⟩
    obtain ⟨t, ht, rfl⟩ := map_eq_ok hp
    exact ⟨t, ht, rfl⟩
  · rintro ⟨t, ht, rfl⟩
    -- the part is the name, bare or in backticks: no parenthesis and no placeholder
    have hsane : ∀ d ∈ t.toList, d ≠ '(' ∧ d ≠ ')' ∧ d ≠ '?' := by
      have hname : ∀ d ∈ n.toList, d ≠ '(' ∧ d ≠ ')' ∧ d ≠ '?' := fun d hd =>
        (Name.isNameChar_facts (hchars d hd)).2.2.2.2.2
      rcases namePart_ok ht with rfl | rfl
      · exact hname
      · intro d hd
        simp only [String.toList_append, List.mem_append] at hd
        rcases hd with (hd | hd) | hd
        · simp at hd; simp [hd]
        · exact hname d hd
        · simp at hd; simp [hd]
    exact ⟨⟨⟨t ++ "=?", [.int 1]⟩, false⟩, by rw [ht]; rfl, sanityCheck_comparison hsane, rfl⟩

/-- A clause the lexer refuses is not bound. -/
theorem ofText_ne_ok_of_lex {clock : Stamp} {f : String} (hf : isBlankText f = false)
    {e : GuardError} (hlex : Lexeme.lex f = .error e) (c : BoundClause) :
    ofText clock f ≠ .ok c := by
  intro h
  obtain ⟨p, hp, -⟩ := (ofText_ok_iff hf).1 h
  unfold ofFragment at hp
  rw [hlex] at hp
  cases hp

end BoundClause

/-! ## The two writers agree -/

namespace Name

open Text

variable {n : String}

/-- Outside the logic words, quoting a plain column and writing it as a name part succeed
together, and the part is the name bare or as quoting writes it: both quote at once a reserved
word that is no statement word, and otherwise both ask the screen. -/
theorem quoteColumn_namePart (hn : IsPlainColumn n.toList) (hlogic : Lexicon.isLogicWord n = false) :
    ((∃ q, quoteColumn n = .ok q) ↔ ∃ t, BoundClause.namePart n = .ok t) ∧
      ∀ q t, quoteColumn n = .ok q → BoundClause.namePart n = .ok t → t = n ∨ t = q := by
  rw [quoteColumn_plain hn, BoundClause.namePart_of_not_logic hlogic]
  split
  · simp
  · cases Screen.ensureSafe n Families.symbolsAndKeywords with
    | error e => simp [Except.map]
    | ok u => simp [Except.map]

/-- A plain column name made of a connective, a `$` and more is refused by quoting: it is no
reserved word, and the screen finds the connective. -/
theorem quoteColumn_ne_ok_of_dollar (hn : IsPlainColumn n.toList) {u v : List Char}
    (hsplit : n.toList = u ++ '$' :: v) (hne : u ≠ []) (hstart : ∀ c ∈ u, Lex.isNameStart c = true)
    {k : String} (hk : k ∈ Lex.connectives) (hu : u.map foldKey = k.toList.map Char.toLower)
    (q : String) : quoteColumn n ≠ .ok q := by
  intro h
  rw [quoteColumn_plain hn, Lexicon.isReserved_eq_false_of_dollar (by simp [hsplit]),
    Bool.and_false, if_neg Bool.false_ne_true] at h
  obtain ⟨_, hsafe, -⟩ := BoundClause.map_eq_ok h
  have hinspect := BoundClause.inspect_namePart hn.isNamePart Families.symbolsAndKeywords
  rw [String.ofList_toList] at hinspect
  rw [Screen.ensureSafe, hinspect, BoundClause.toCheck_eq_ok, hsplit] at hsafe
  exact Screen.searchFamilies_connective_run hk hu hne
    (fun c hc => Lex.isWordChar_of_isNameStart (hstart c hc)) (by simp; decide) hsafe

end Name

/-- A column name written on its own and the same name in the clause `n = 1` agree, for every
plain column name that is not a logic word: quoting it succeeds exactly when binding the clause
does, and the clause then writes the name bare or exactly as quoting does, compared with one
placeholder for the parameter one. -/
theorem quoteColumn_agrees_with_clause (clock : Stamp) {n : String} (hn : Name.IsPlainColumn n.toList)
    (hlogic : Lexicon.isLogicWord n = false) :
    ((∃ q, Name.quoteColumn n = .ok q) ↔ ∃ c, BoundClause.ofText clock (n ++ " = 1") = .ok c) ∧
      ∀ q c, Name.quoteColumn n = .ok q → BoundClause.ofText clock (n ++ " = 1") = .ok c →
        c = ⟨n ++ "=?", [.int 1]⟩ ∨ c = ⟨q ++ "=?", [.int 1]⟩ := by
  have hpart := hn.isNamePart
  rcases @Lex.connectiveLength_plainColumn n.toList " = 1".toList hn rfl with
    hnone | ⟨k, hk, hfold⟩ | ⟨u, v, hsplit, hne, hstart, k, hk, hu⟩
  · -- the lexer reads the name: both sides come down to writing the name part
    have hclause : Lexicon.isClauseWord n = false := by
      obtain ⟨c, cs, hcs, hc, -⟩ := hpart
      rw [Bool.eq_false_iff]
      intro h
      have := Lexicon.isLogicWord_of_isClauseWord (by simp [hcs, hc]) h
      simp [hlogic] at this
    have hbind := fun c => BoundClause.ofText_column_ok_iff clock hn
      (Lex.lex_plainColumn hn hnone hclause) (c := c)
    obtain ⟨hiff, hwrite⟩ := Name.quoteColumn_namePart hn hlogic
    refine ⟨hiff.trans ⟨?_, ?_⟩, ?_⟩
    · rintro ⟨t, ht⟩
      exact ⟨_, (hbind _).2 ⟨t, ht, rfl⟩⟩
    · rintro ⟨c, hc⟩
      obtain ⟨t, ht, -⟩ := (hbind c).1 hc
      exact ⟨t, ht⟩
    · intro q c hq hc
      obtain ⟨t, ht, rfl⟩ := (hbind c).1 hc
      rcases hwrite q t hq ht with rfl | rfl
      · exact .inl rfl
      · exact .inr rfl
  · -- the name is a connective, hence a logic word
    have hascii : ∀ c ∈ n.toList, c.toNat < 128 := fun c hc =>
      Name.toNat_lt_of_isNameChar (hn.isNameChar c hc)
    have := Lexicon.isLogicWord_of_fold hascii hk hfold
    rw [String.ofList_toList, hlogic] at this
    cases this
  · -- a connective glued to the rest by a `$`: both refuse
    obtain ⟨e, he⟩ := Lex.go_error_of_dollar (v := v ++ " = 1".toList) hne hstart hk hu
    have hlex : Lexeme.lex (n ++ " = 1") = .error e := by
      rw [Lexeme.lex, String.toList_append, hsplit, List.append_assoc, List.cons_append, he]
    have hq := Name.quoteColumn_ne_ok_of_dollar hn hsplit hne hstart hk hu
    have hc : ∀ c, BoundClause.ofText clock (n ++ " = 1") ≠ .ok c :=
      BoundClause.ofText_ne_ok_of_lex (BoundClause.isBlankText_plain hn _) hlex
    refine ⟨iff_of_false ?_ ?_, fun q _ h => absurd h (hq q)⟩
    · rintro ⟨q, h⟩
      exact hq q h
    · rintro ⟨c, h⟩
      exact hc c h

theorem quoteColumn_agrees_with_clause_order :
    Name.IsPlainColumn "order".toList ∧ Lexicon.isLogicWord "order" = false ∧
      (((∃ q, Name.quoteColumn "order" = .ok q) ↔
          ∃ c, BoundClause.ofText ⟨2024, 1, 2, 3, 4, 5, 0⟩ ("order" ++ " = 1") = .ok c) ∧
        ∀ q c, Name.quoteColumn "order" = .ok q →
          BoundClause.ofText ⟨2024, 1, 2, 3, 4, 5, 0⟩ ("order" ++ " = 1") = .ok c →
            c = ⟨"order" ++ "=?", [.int 1]⟩ ∨ c = ⟨q ++ "=?", [.int 1]⟩) := by
  have hplain : Name.IsPlainColumn "order".toList :=
    ⟨'o', ['r', 'd', 'e', 'r'], by simp, .inl rfl, by simp [Name.isNameChar]⟩
  have hlogic : Lexicon.isLogicWord "order" = false := by
    simp [Lexicon.isLogicWord, Lexicon.memIgnoreCase, Lexicon.logicWords, Text.eqIgnoreAsciiCase,
      Text.asciiLower, ← String.toList_inj, String.toList_map]
  exact ⟨hplain, hlogic, quoteColumn_agrees_with_clause _ hplain hlogic⟩

set_option maxRecDepth 20000 in
/-- A logic word breaks the agreement: `xor` is a reserved word and is quoted on its own, but the
clause writer does not quote logic words, so in `xor = 1` the name goes to the screen, which
refuses it as a keyword. -/
theorem quoteColumn_xor_refused_in_clause :
    Name.quoteColumn "xor" = .ok "`xor`" ∧
      ∀ c, BoundClause.ofText ⟨2024, 1, 2, 3, 4, 5, 0⟩ "xor = 1" ≠ .ok c := by
  have hplain : Name.IsPlainColumn "xor".toList :=
    ⟨'x', ['o', 'r'], by simp, .inl rfl, by simp [Name.isNameChar]⟩
  have hreserved : Lexicon.isReserved "xor" = true :=
    List.any_eq_true.2 ⟨"xor", by decide, by simp [Text.eqIgnoreAsciiCase]⟩
  have hstmt : Lexicon.isStatementWord "xor" = false := by
    simp [Lexicon.isStatementWord, Lexicon.memIgnoreCase, Lexicon.statementWords,
      Text.eqIgnoreAsciiCase, Text.asciiLower, ← String.toList_inj, String.toList_map]
  have hlogic : Lexicon.isLogicWord "xor" = true := by
    simp [Lexicon.isLogicWord, Lexicon.memIgnoreCase, Lexicon.logicWords, Text.eqIgnoreAsciiCase]
  have hclause : Lexicon.isClauseWord "xor" = false := by
    simp [Lexicon.isClauseWord, Lexicon.memIgnoreCase, Lexicon.clauseWords, Text.eqIgnoreAsciiCase,
      Text.asciiLower, ← String.toList_inj, String.toList_map]
  have hconn : Lex.connectiveLength none ("xor".toList ++ " = 1".toList) = none := by
    rw [show "xor".toList = ['x', 'o', 'r'] by simp, show " = 1".toList = [' ', '=', ' ', '1'] by simp,
      Lex.connectiveLength_word (by simp) (by simp) (by simp [Lex.isNameStart])
        (by simp [Lex.isNameStart]; decide)]
    decide
  -- the screen's verdict on the bare word
  have hsafe : Screen.ensureSafe "xor" Families.symbolsAndKeywords =
      .error (.injection "xor" .keyword) := by
    decide +kernel
  refine ⟨by rw [Name.quoteColumn_plain hplain, hstmt, hreserved]; rfl, fun c hc => ?_⟩
  obtain ⟨t, ht, -⟩ := (BoundClause.ofText_column_ok_iff _ hplain
    (Lex.lex_plainColumn hplain hconn hclause)).1 hc
  simp [BoundClause.namePart, Lexicon.needsQuoting, hreserved, hlogic, hsafe] at ht

end QueryShield
