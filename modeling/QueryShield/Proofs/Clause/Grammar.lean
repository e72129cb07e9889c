import Mathlib
import QueryShield.Clause.Bound
import QueryShield.Proofs.Clause.Lexemes
import QueryShield.Proofs.Guard.Prefilters
import QueryShield.Proofs.Conversation

/-!
# The grammar of bound clause text

A bound clause is built from the lexemes of its fragments: literals become `?`, names are
rewritten segment by segment, connectives, comparisons and punctuation stay.  Its text is
therefore a sequence of *clause pieces* (`ClausePiece`), each glued to the one before it or
after a single space (`Spaced`):

* a placeholder `?`;
* a comparison, a parenthesis or a comma;
* a connective, written without lower-case ASCII letters;
* a dotted name, each segment a reserved word that is no statement word in backticks, or a
  bare name part on which the screen's symbol and keyword searches find nothing.

`BoundClause.ofFilter_injection_free` states this of every clause `ofFilter` returns, with its
consequence on characters: no quote, no `;`, `#`, `@`, backslash, minus sign or slash, so
neither a line comment nor a block comment can start.

The proof follows the construction.  A name segment is checked by the screen, and a name
part is judged by the family searches alone (`IsNamePart.inspect`).  The pieces of a fragment
come from lexemes of known shapes (`Lexeme.lex_shaped`); joining them keeps the grammar
(`joinPieces_spaced`), and so do the parentheses and the ` AND ` that join fragments.
-/

namespace QueryShield
namespace BoundClause

open Text QueryShield.Lex

/-! ## Pieces and spacing -/

/-- A segment of a name as a bound clause writes it: a reserved word that is no statement word,
in backticks, or a bare name part on which the symbol and keyword searches find nothing. -/
def IsNameSegment (s : List Char) : Prop :=
  (∃ p, s = '`' :: p ++ ['`'] ∧ IsNamePart p ∧ Lexicon.isReserved (String.ofList p) = true ∧
      Lexicon.isStatementWord (String.ofList p) = false) ∨
    (IsNamePart s ∧ Screen.searchFamilies s Families.symbolsAndKeywords = .clean)

/-- A name as a bound clause writes it: segments separated by single dots. -/
def IsBoundName (w : List Char) : Prop :=
  ∃ segs : List (List Char), segs ≠ [] ∧ (∀ s ∈ segs, IsNameSegment s) ∧
    w = ['.'].intercalate segs

/-- The pieces of bound clause text. -/
inductive ClausePiece : List Char → Prop
  | placeholder : ClausePiece ['?']
  | comparison {op : String} : op ∈ comparisons → ClausePiece op.toList
  | punctuation {p : String} : p ∈ ["(", ")", ","] → ClausePiece p.toList
  | connective {w : List Char} : IsConnective w → ClausePiece w
  | name {w : List Char} : IsBoundName w → ClausePiece w

/-- Clause text: pieces, each glued to the text before it or after a single space. -/
inductive Spaced : List Char → Prop
  | piece {p : List Char} : ClausePiece p → Spaced p
  | glued {s p : List Char} : Spaced s → ClausePiece p → Spaced (s ++ p)
  | spaced {s p : List Char} : Spaced s → ClausePiece p → Spaced (s ++ ' ' :: p)

namespace Spaced

/-- A piece glued in front of clause text. -/
theorem cons_glued {p w : List Char} (hp : ClausePiece p) (hw : Spaced w) :
    Spaced (p ++ w) := by
  induction hw with
  | piece hq => exact .glued (.piece hp) hq
  | glued _ hq ih =>
    rw [← List.append_assoc]
    exact .glued ih hq
  | spaced _ hq ih =>
    rw [← List.append_assoc]
    exact .spaced ih hq

/-- Two clause texts with a single space between them. -/
theorem append_spaced {v w : List Char} (hv : Spaced v) (hw : Spaced w) :
    Spaced (v ++ ' ' :: w) := by
  induction hw with
  | piece hq => exact .spaced hv hq
  | glued _ hq ih =>
    rw [← List.cons_append, ← List.append_assoc]
    exact .glued ih hq
  | spaced _ hq ih =>
    rw [← List.cons_append, ← List.append_assoc]
    exact .spaced ih hq

/-- Clause text in parentheses. -/
theorem paren {w : List Char} (hw : Spaced w) : Spaced ('(' :: w ++ [')']) := by
  have hopen : ClausePiece ['('] := .punctuation (p := "(") (by simp)
  have hclose : ClausePiece [')'] := .punctuation (p := ")") (by simp)
  exact .glued (cons_glued hopen hw) hclose

/-- Two clause texts joined by ` AND `. -/
theorem append_and {v w : List Char} (hv : Spaced v) (hw : Spaced w) :
    Spaced (v ++ " AND ".toList ++ w) := by
  have hand : ClausePiece "AND".toList := .connective ⟨by simp, "AND", by simp [connectiveWords],
    by simp [foldEqWord, foldEq]⟩
  have hleft : Spaced (v ++ ' ' :: "AND".toList) := .spaced hv hand
  have hjoin := append_spaced hleft hw
  simpa using hjoin

/-- Clause texts joined by ` AND `. -/
theorem intercalate_and {ws : List (List Char)} (hne : ws ≠ []) (hws : ∀ w ∈ ws, Spaced w) :
    Spaced (" AND ".toList.intercalate ws) := by
  induction ws with
  | nil => exact absurd rfl hne
  | cons w ws ih =>
    cases ws with
    | nil => simpa using hws w (by simp)
    | cons w' ws =>
      rw [List.intercalate_cons_cons]
      exact append_and (hws w (by simp)) (ih (by simp) fun v hv => hws v (by simp [hv]))

end Spaced

/-! ## Names -/

/-- A name part is judged by the symbol and keyword searches alone: it is not blank, holds no
`@` and nothing that lower-cases to `;`, and starts with neither a minus sign nor a digit. -/
theorem inspect_namePart {p : List Char} (hp : IsNamePart p) (families : Families) :
    Screen.inspect (String.ofList p) families = Screen.searchFamilies p families := by
  have hchars := hp.isNameChar
  obtain ⟨c, cs, rfl, hc, -⟩ := hp
  refine Screen.inspect_eq_searchFamilies (by simp)
    (fun d hd => isNameChar_not_blank (hchars d hd)) ?_ ?_ ?_ families
  · intro hat
    exact absurd (hchars '@' hat) (by decide)
  · intro d hd hsemi
    have hlow := isNameChar_toLower (hchars d hd)
    rw [hsemi] at hlow
    exact absurd hlow (by decide)
  · intro d hd
    simp only [List.head?_cons, Option.mem_def, Option.some.injEq] at hd
    subst hd
    refine ⟨?_, isNameStart_not_digit hc⟩
    rintro rfl
    exact absurd hc (by decide)

theorem toCheck_eq_ok {v : Verdict} {input : String} :
    v.toCheck input = .ok () ↔ v = .clean := by
  cases v <;> simp [Verdict.toCheck]

/-- A name part becomes a name segment: quoted when it is a reserved word, bare when the
screen passes it. -/
theorem namePart_segment {p : List Char} {seg : String} (hp : IsNamePart p)
    (h : namePart (String.ofList p) = .ok seg) : IsNameSegment seg.toList := by
  unfold namePart at h
  split at h
  · rename_i hquote
    cases h
    simp only [Bool.and_eq_true, Bool.not_eq_eq_eq_not, Bool.not_true] at hquote
    have hreserved : Lexicon.isReserved (String.ofList p) = true := by
      have hneeds := hquote.2
      simp only [Lexicon.needsQuoting, Bool.and_eq_true] at hneeds
      exact hneeds.1
    exact .inl ⟨p, by simp, hp, hreserved, hquote.1⟩
  · split at h
    · rename_i hsafe
      cases h
      rw [Screen.ensureSafe, inspect_namePart hp, toCheck_eq_ok] at hsafe
      exact .inr ⟨by simpa using hp, by simpa using hsafe⟩
    · cases h

/-- A dotted name becomes a bound name, segment by segment. -/
theorem nameText_bound {w t : String} (hw : IsDottedName w.toList) (h : nameText w = .ok t) :
    IsBoundName t.toList := by
  obtain ⟨parts, hne, hparts, hweq⟩ := hw
  have hsplit : w.toList.splitOn '.' = parts := by
    rw [hweq]
    exact List.splitOn_intercalate '.' (fun p hp => (hparts p hp).not_dot) hne
  rw [nameText, hsplit] at h
  obtain ⟨segs, hsegs, h⟩ := exists_of_bind_eq_ok h
  cases h
  obtain ⟨hlen, hseg⟩ := mapM_eq_ok hsegs
  refine ⟨segs.map String.toList, ?_, ?_, by simp [String.toList_intercalate]⟩
  · intro hnil
    simp only [List.map_eq_nil_iff] at hnil
    subst hnil
    exact hne (List.length_eq_zero_iff.1 (by simpa using hlen.symm))
  · intro s hs
    obtain ⟨seg, hseg', rfl⟩ := List.mem_map.1 hs
    obtain ⟨part, hpart, hok⟩ := hseg seg hseg'
    obtain ⟨p, hp, rfl⟩ := List.mem_map.1 hpart
    exact namePart_segment (hparts p hp) hok

/-! ## Fragments -/

theorem foldl_inv {α β : Type} {f : β → α → β} {I : β → Prop} {l : List α} {init : β}
    (hinit : I init) (hf : ∀ b a, a ∈ l → I b → I (f b a)) : I (l.foldl f init) := by
  induction l generalizing init with
  | nil => exact hinit
  | cons a l ih => exact ih (hf init a (by simp) hinit) fun b a' ha => hf b a' (by simp [ha])

/-- Joining clause pieces gives clause text: a piece is glued to the text so far, or put after
a single space. -/
theorem joinPieces_spaced {pieces : List (String × LexemeKind)}
    (h : ∀ q ∈ pieces, ClausePiece q.1.toList) :
    joinPieces pieces = "" ∨ Spaced (joinPieces pieces).toList := by
  unfold joinPieces
  refine foldl_inv (I := fun acc : String × Bool => acc.1 = "" ∨ Spaced acc.1.toList)
    (by simp) ?_
  rintro ⟨out, glue⟩ ⟨text, kind⟩ hq hout
  have hp : ClausePiece text.toList := h _ hq
  right
  dsimp only
  split
  · -- glued to the text so far, which may be empty
    rcases hout with rfl | hs
    · simpa using Spaced.piece hp
    · simpa using Spaced.glued hs hp
  · rename_i hcond
    rcases hout with rfl | hs
    · simp at hcond
    · simpa using Spaced.spaced hs hp

/-- Each lexeme, bound, is a clause piece: a literal is a placeholder, a name is rewritten
segment by segment, and the other kinds stay as the lexer wrote them. -/
theorem ofFragment_spaced {clock : Stamp} {fragment : String} {piece : Piece}
    (h : ofFragment clock fragment = .ok piece) :
    piece.clause.text = "" ∨ Spaced piece.clause.text.toList := by
  unfold ofFragment at h
  obtain ⟨lexemes, hlex, h⟩ := exists_of_bind_eq_ok h
  obtain ⟨⟨pieces, params, depth, orTop⟩, hfold, h⟩ := exists_of_bind_eq_ok h
  cases h
  have hshaped := Lexeme.lex_shaped hlex
  have hpieces : ∀ q ∈ pieces, ClausePiece q.1.toList := by
    refine foldlM_inv (I := fun acc => ∀ q ∈ acc.1, ClausePiece q.1.toList) (by simp) ?_ hfold
    rintro ⟨ps, vs, d, o⟩ l acc' hl hps hstep
    have hl' := hshaped l hl
    have push : ∀ {q₀ : String × LexemeKind}, ClausePiece q₀.1.toList →
        ∀ q ∈ q₀ :: ps, ClausePiece q.1.toList := by
      intro q₀ hq₀ q hq
      rcases List.mem_cons.1 hq with rfl | hq
      · exact hq₀
      · exact hps q hq
    dsimp only at hstep
    -- one case per kind of lexeme, each read off the lexeme's shape
    split at hstep <;> rename_i hk <;> simp only [Lexeme.Shaped, hk] at hl'
    · cases hstep
      exact push (by simpa using ClausePiece.placeholder)
    · obtain ⟨t, ht, hstep⟩ := exists_of_bind_eq_ok hstep
      cases hstep
      exact push (.name (nameText_bound hl' ht))
    · cases hstep
      exact push (.connective hl')
    · -- the depth only decides between failing and keeping the lexeme
      split_ifs at hstep <;> cases hstep <;> exact push (.punctuation hl')
    · cases hstep
      exact push (.comparison hl')
  exact joinPieces_spaced (by simpa using hpieces)

/-! ## Clauses -/

theorem sanityCheck_ok {c : BoundClause} (h : c.sanityCheck = .ok ()) :
    c.placeholderCount = c.params.length := by
  unfold sanityCheck at h
  dsimp only at h
  split_ifs at h with hparen hquoted hcount
  simpa using hcount

/-- The text a fragment contributes: its clause, in parentheses when it must be. -/
theorem fragmentText_spaced {t : String} (ht : Spaced t.toList) (paren : Bool) :
    Spaced (if paren then "(" ++ t ++ ")" else t).toList := by
  cases paren
  · simpa using ht
  · simpa using Spaced.paren ht

/-- The text of a bound clause is empty or clause text, and it has one placeholder for each
parameter. -/
theorem ofFilter_spaced {clock : Stamp} {filter : RowFilter} {c : BoundClause}
    (h : ofFilter clock filter = .ok c) :
    (c.text = "" ∨ Spaced c.text.toList) ∧ c.placeholderCount = c.params.length := by
  unfold ofFilter at h
  dsimp only at h
  split at h
  · cases h
    exact ⟨.inl rfl, rfl⟩
  · obtain ⟨⟨texts, params⟩, hloop, h⟩ := exists_of_bind_eq_ok h
    obtain ⟨u, hsane, h⟩ := exists_of_bind_eq_ok h
    cases h
    -- the loop keeps the texts it has collected clause text
    have htexts : ∀ t ∈ texts, Spaced t.toList := by
      refine forIn_inv (I := fun acc : List String × List Datum => ∀ t ∈ acc.1, Spaced t.toList)
        (by simp) ?_ hloop
      rintro part ⟨ts, ps⟩ s - hts hstep
      obtain ⟨piece, hpiece, hstep⟩ := exists_of_bind_eq_ok hstep
      split at hstep
      · cases hstep
        exact hts
      · rename_i hkept
        cases hstep
        intro t ht
        rcases List.mem_append.1 ht with ht | ht
        · exact hts t ht
        · rw [List.mem_singleton] at ht
          subst ht
          rcases ofFragment_spaced hpiece with hempty | hs
          · exact absurd (by simp [BoundClause.isEmpty, hempty, isBlankText]) hkept
          · exact fragmentText_spaced hs _
    refine ⟨?_, sanityCheck_ok hsane⟩
    by_cases hnil : texts = []
    · left
      simp [hnil]
    · right
      rw [String.toList_intercalate]
      exact Spaced.intercalate_and (by simpa using hnil) (by simpa using htexts)

/-! ## Characters -/

/-- The characters clause text is made of: name characters, and those of placeholders,
comparisons, punctuation, spaces, dots and backticks. -/
def IsClauseChar (c : Char) : Prop := isNameChar c = true ∨ c ∈ "?<>=!(), .`".toList

/-- No clause character quotes, ends a statement, starts a comment or escapes. -/
theorem IsClauseChar.not_forbidden {c : Char} (h : IsClauseChar c) :
    c ∉ ['\'', '"', ';', '#', '@', '\\', '-', '/'] := by
  rcases h with h | h
  · rcases isNameChar_cases h with hc | rfl | rfl
    · exact ascii_forall (fun c => isNameChar c = true → c ∉ ['\'', '"', ';', '#', '@', '\\', '-', '/'])
        (by decide) hc h
    · decide
    · decide
  · revert h
    revert c
    simp

theorem mem_of_mem_intercalate {c : Char} {sep : List Char} {ls : List (List Char)}
    (h : c ∈ sep.intercalate ls) : c ∈ sep ∨ ∃ l ∈ ls, c ∈ l := by
  induction ls with
  | nil => simp at h
  | cons l ls ih =>
    cases ls with
    | nil => exact .inr ⟨l, by simp, by simpa using h⟩
    | cons l' ls =>
      rw [List.intercalate_cons_cons] at h
      simp only [List.mem_append] at h
      rcases h with (h | h) | h
      · exact .inr ⟨l, by simp, h⟩
      · exact .inl h
      · rcases ih h with h | ⟨t, ht, hc⟩
        · exact .inl h
        · exact .inr ⟨t, List.mem_cons_of_mem _ ht, hc⟩

theorem IsNameSegment.chars {s : List Char} (h : IsNameSegment s) : ∀ c ∈ s, IsClauseChar c := by
  rcases h with ⟨p, rfl, hp, -, -⟩ | ⟨hp, -⟩
  · intro c hc
    simp only [List.cons_append, List.mem_cons, List.mem_append, List.not_mem_nil,
      or_false] at hc
    rcases hc with rfl | hc | rfl
    · exact .inr (by simp)
    · exact .inl (hp.isNameChar c hc)
    · exact .inr (by simp)
  · exact fun c hc => .inl (hp.isNameChar c hc)

theorem ClausePiece.chars {p : List Char} (h : ClausePiece p) : ∀ c ∈ p, IsClauseChar c := by
  cases h with
  | placeholder => exact fun c hc => .inr (by simp_all)
  | comparison hop =>
    simp only [comparisons, List.mem_cons, List.not_mem_nil, or_false] at hop
    intro c hc
    refine .inr ?_
    rcases hop with rfl | rfl | rfl | rfl | rfl | rfl | rfl <;> simp at hc <;> grind
  | punctuation hp =>
    simp only [List.mem_cons, List.not_mem_nil, or_false] at hp
    intro c hc
    refine .inr ?_
    rcases hp with rfl | rfl | rfl <;> simp at hc <;> simp [hc]
  | connective hw => exact fun c hc => .inl (isNameChar_of_isNameStart (hw.isNameStart c hc))
  | name hw =>
    obtain ⟨segs, -, hsegs, rfl⟩ := hw
    intro c hc
    rcases mem_of_mem_intercalate hc with hdot | ⟨s, hs, hc⟩
    · rw [List.mem_singleton] at hdot
      subst hdot
      exact .inr (by simp)
    · exact (hsegs s hs).chars c hc

theorem Spaced.chars {w : List Char} (h : Spaced w) : ∀ c ∈ w, IsClauseChar c := by
  induction h with
  | piece hp => exact hp.chars
  | glued _ hp ih =>
    intro c hc
    rcases List.mem_append.1 hc with hc | hc
    · exact ih c hc
    · exact hp.chars c hc
  | spaced _ hp ih =>
    intro c hc
    rcases List.mem_append.1 hc with hc | hc
    · exact ih c hc
    · rcases List.mem_cons.1 hc with rfl | hc
      · exact .inr (by simp)
      · exact hp.chars c hc

/-- **Bound clause text is injection-free.**  Whatever the filter, the text of a clause that
binds is empty or clause pieces, glued or after single spaces; it has one placeholder for each
parameter; and none of its characters is a quote, `;`, `#`, `@`, a backslash, a minus sign or
a slash, so it holds neither `--` nor `/*`. -/
theorem ofFilter_injection_free {clock : Stamp} {filter : RowFilter} {c : BoundClause}
    (h : ofFilter clock filter = .ok c) :
    (c.text = "" ∨ Spaced c.text.toList) ∧ c.placeholderCount = c.params.length ∧
      ∀ ch ∈ c.text.toList, ch ∉ ['\'', '"', ';', '#', '@', '\\', '-', '/'] := by
  obtain ⟨htext, hcount⟩ := ofFilter_spaced h
  refine ⟨htext, hcount, fun ch hch => ?_⟩
  rcases htext with hempty | hs
  · simp [hempty] at hch
  · exact (hs.chars ch hch).not_forbidden

/-- Two fragments, one with a string, an `OR` and a number, one with a reserved word as a
column: the first goes in parentheses, the reserved word in backticks, and the literals become
parameters. -/
theorem ofFilter_two_fragments :
    let c : BoundClause :=
      ⟨"(name=? OR (age>=?)) AND t.`order` IS NOT NULL", [.text "b'ob", .int 3]⟩
    ofFilter ⟨2024, 1, 1, 0, 0, 0, 0⟩
        (.fragments ["name = 'b''ob' OR (age>=3)", "t.order is not null"]) = .ok c ∧
      (c.text = "" ∨ Spaced c.text.toList) ∧ c.placeholderCount = c.params.length ∧
      ∀ ch ∈ c.text.toList, ch ∉ ['\'', '"', ';', '#', '@', '\\', '-', '/'] := by
  intro c
  have h : ofFilter ⟨2024, 1, 1, 0, 0, 0, 0⟩
      (.fragments ["name = 'b''ob' OR (age>=3)", "t.order is not null"]) = .ok c := by
    decide +kernel
  exact ⟨h, ofFilter_injection_free h⟩

end BoundClause
end QueryShield
