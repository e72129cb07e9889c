import Mathlib
import QueryShield.Json.Decoder
import QueryShield.Proofs.Json.CompactText

/-!
# Reading a text one step at a time

The reader walks a text from the left, keeping the characters left to read and the place
reached (line and column).  The place is only ever used to place faults, so a step that
succeeds reads the same characters the same way from any place.  `Reads x u v r` says this
of one reading step `x`: run on the characters `u` followed by `r`, from any place, it gives
`v` and stops right before `r`.

Steps compose: `Reads.bind` chains two readings, the second starting where the first stopped.
The lemmas of this module give each basic step of the reader its `Reads` form: the
punctuation between values (`reads_colon`, `reads_endArray`, `reads_endObject`), the words
`null`, `true` and `false` (`reads_ident`), brackets with their nesting limit
(`reads_bracketed`), and a string's body with its escapes (`reads_readString`).
-/

namespace QueryShield
namespace Json

/-- `x`, run on the characters `u` followed by `r` from any place, reads them as `v` and
stops right before `r`. -/
def Reads {α : Type} (x : Reading α) (u : List Char) (v : α) (r : List Char) : Prop :=
  ∀ line column, ∃ line' column', x ⟨u ++ r, line, column⟩ = .ok v ⟨r, line', column'⟩

namespace Reads

variable {α β : Type} {u w r : List Char}

theorem of_pure (v : α) (r : List Char) : Reads (pure v) [] v r :=
  fun l c => ⟨l, c, rfl⟩

/-- Two readings in a row read the two texts one after the other. -/
theorem bind {x : Reading α} {f : α → Reading β} {a : α} {b : β}
    (hx : Reads x u a (w ++ r)) (hf : Reads (f a) w b r) : Reads (x >>= f) (u ++ w) b r := by
  intro l c
  obtain ⟨l₁, c₁, h₁⟩ := hx l c
  obtain ⟨l₂, c₂, h₂⟩ := hf l₁ c₁
  refine ⟨l₂, c₂, ?_⟩
  rw [List.append_assoc]
  show EStateM.bind x f _ = _
  simp only [EStateM.bind, h₁, h₂]

/-- `bind` with the text read by the pair named. -/
theorem bind_eq {x : Reading α} {f : α → Reading β} {a : α} {b : β} {t : List Char}
    (hx : Reads x u a (w ++ r)) (hf : Reads (f a) w b r) (ht : t = u ++ w) :
    Reads (x >>= f) t b r :=
  ht ▸ bind hx hf

theorem map {x : Reading α} {a : α} (f : α → β) (hx : Reads x u a r) : Reads (f <$> x) u (f a) r := by
  intro l c
  obtain ⟨l₁, c₁, h₁⟩ := hx l c
  exact ⟨l₁, c₁, by show EStateM.map f x _ = _; simp only [EStateM.map, h₁]⟩

/-- A step that succeeds is caught by `attempt` as a success. -/
theorem attempt {x : Reading α} {a : α} (hx : Reads x u a r) :
    Reads (Json.attempt x) u (.ok a) r := by
  intro l c
  obtain ⟨l₁, c₁, h₁⟩ := hx l c
  exact ⟨l₁, c₁, by simp only [Json.attempt, h₁]⟩

/-- A step that looks at the whole position first reads as it does from each position. -/
theorem get_bind {f : Cursor → Reading α} {v : α}
    (h : ∀ l c, Reads (f ⟨u ++ r, l, c⟩) u v r) : Reads (get >>= f) u v r := by
  intro l c
  obtain ⟨l', c', h'⟩ := h l c l c
  exact ⟨l', c', h'⟩

end Reads

/-! ## Single characters -/

/-- Whether a character is one of the blanks the reader skips between values. -/
def IsBlankChar (c : Char) : Prop := c = ' ' ∨ c = '\n' ∨ c = '\t' ∨ c = '\r'

instance : DecidablePred IsBlankChar := fun c => by unfold IsBlankChar; infer_instance

/-- What follows does not start with a blank. -/
def NoLeadingBlank (r : List Char) : Prop := ∀ c ∈ r.head?, ¬ IsBlankChar c

theorem noLeadingBlank_nil : NoLeadingBlank [] := fun c hc => by simp at hc

theorem noLeadingBlank_cons {c : Char} (h : ¬ IsBlankChar c) (r : List Char) :
    NoLeadingBlank (c :: r) := by
  intro d hd
  rw [List.head?_cons, Option.mem_def, Option.some.injEq] at hd
  exact hd ▸ h

theorem advance_cons (c : Char) (t : List Char) (l col : Nat) :
    ∃ l' col', (⟨c :: t, l, col⟩ : Cursor).advance = ⟨t, l', col'⟩ := by
  by_cases h : c = '\n'
  · exact ⟨l + 1, 0, by simp [Cursor.advance, h]⟩
  · exact ⟨l, col + c.utf8Size, by simp [Cursor.advance, h]⟩

theorem reads_eat (c : Char) (r : List Char) : Reads eat [c] () r := by
  intro l col
  obtain ⟨l', col', h⟩ := advance_cons c r l col
  exact ⟨l', col', by simp only [eat, List.singleton_append, h]⟩

theorem reads_next (c : Char) (r : List Char) : Reads next [c] (some c) r := by
  intro l col
  obtain ⟨l', col', h⟩ := advance_cons c r l col
  exact ⟨l', col', by simp only [next, List.singleton_append, h, List.head?_cons]⟩

theorem reads_peek (r : List Char) : Reads peek [] r.head? r :=
  fun l c => ⟨l, c, rfl⟩

theorem reads_remaining (r : List Char) : Reads remaining [] r.length r :=
  fun l c => ⟨l, c, rfl⟩

theorem skipBlanks_of_noLeadingBlank {s : Cursor} (h : NoLeadingBlank s.rest) :
    s.skipBlanks = s := by
  rw [Cursor.skipBlanks]
  split
  · rfl
  · rename_i c t hc
    rw [hc] at h
    have hb := h c rfl
    simp only [IsBlankChar] at hb
    simp only [Bool.or_eq_true, beq_iff_eq]
    rw [if_neg (by tauto)]

/-- Where no blank stands, `blanks` only looks at the next character. -/
theorem reads_blanks {r : List Char} (h : NoLeadingBlank r) : Reads blanks [] r.head? r := by
  intro l c
  refine ⟨l, c, ?_⟩
  simp only [blanks, List.nil_append]
  rw [skipBlanks_of_noLeadingBlank h]

/-! ## Words and punctuation -/

/-- The rest of a word is read letter by letter. -/
theorem reads_ident (word r : List Char) : Reads (ident word) word () r := by
  induction word with
  | nil => exact fun l c => ⟨l, c, rfl⟩
  | cons a word ih =>
    unfold ident at ih ⊢
    rw [List.forIn_cons, bind_assoc]
    refine Reads.bind (u := [a]) (a := .yield ()) (Reads.bind (u := [a]) (w := []) (reads_next a _) ?_) ?_
    · simp only [bne_self_eq_false, Bool.false_eq_true, if_false]
      exact Reads.of_pure _ _
    · exact ih

theorem reads_colon (r : List Char) : Reads colon [':'] () r := by
  unfold colon
  exact Reads.bind (u := []) (reads_blanks (noLeadingBlank_cons (by decide) r)) (reads_eat ':' r)

theorem reads_endArray (r : List Char) : Reads endArray [']'] () r := by
  unfold endArray
  exact Reads.bind (u := []) (reads_blanks (noLeadingBlank_cons (by decide) r)) (reads_eat ']' r)

theorem reads_endObject (r : List Char) : Reads endObject ['}'] () r := by
  unfold endObject
  exact Reads.bind (u := []) (reads_blanks (noLeadingBlank_cons (by decide) r)) (reads_eat '}' r)

/-- A bracketed body within the nesting limit: the opening character, the body, then what
closes it. -/
theorem reads_bracketed {α : Type} {depth : Nat} {body : Reading α} {close : Reading Unit}
    {o : Char} {u w r : List Char} {v : α} (hd : 1 < depth) (hbody : Reads body u v (w ++ r))
    (hclose : Reads close w () r) : Reads (bracketed depth body close) (o :: (u ++ w)) v r := by
  unfold bracketed
  simp only [if_neg (show ¬ depth ≤ 1 by omega)]
  refine Reads.bind (u := [o]) (reads_eat o _) ?_
  refine Reads.bind (Reads.attempt hbody) ?_
  rw [← List.append_nil w]
  exact Reads.bind (Reads.attempt hclose) (Reads.of_pure v r)

/-! ## Strings -/

/-- Four hexadecimal digits are read as their value. -/
theorem reads_hexEscape {a b c d : Char} {w x y z : Nat} (ha : hexValue a = some w)
    (hb : hexValue b = some x) (hc : hexValue c = some y) (hd : hexValue d = some z)
    (r : List Char) : Reads hexEscape [a, b, c, d] (((w * 16 + x) * 16 + y) * 16 + z) r := by
  unfold hexEscape
  refine Reads.get_bind fun _ _ => ?_
  refine Reads.bind (u := [a]) (reads_eat a _) ?_
  refine Reads.bind (u := [b]) (reads_eat b _) ?_
  refine Reads.bind (u := [c]) (reads_eat c _) ?_
  refine Reads.bind (u := [d]) (w := []) (reads_eat d _) ?_
  simp only [ha, hb, hc, hd]
  exact Reads.of_pure _ r

/-- The `\u00XX` escape of a control character is read back as the character. -/
theorem reads_unicodeEscape_control {c : Char} (h : c.toNat < 0x20) (r : List Char) :
    Reads unicodeEscape ['0', '0', hexDigit (c.toNat / 16), hexDigit (c.toNat % 16)] c r := by
  have hv := reads_hexEscape (by decide : hexValue '0' = some 0) (by decide : hexValue '0' = some 0)
    (hexValue_hexDigit (by omega : c.toNat / 16 < 16))
    (hexValue_hexDigit (Nat.mod_lt c.toNat (by omega : 0 < 16)))
    r
  have hn : ((0 * 16 + 0) * 16 + c.toNat / 16) * 16 + c.toNat % 16 = c.toNat := by omega
  rw [hn] at hv
  unfold unicodeEscape
  rw [← List.append_nil ['0', '0', hexDigit (c.toNat / 16), hexDigit (c.toNat % 16)]]
  refine Reads.bind hv ?_
  have hplain : c.toNat < 0xD800 := by omega
  simp only [hplain, decide_true, Bool.true_or, if_true, Char.ofNat_toNat]
  rw [if_neg (by simp only [Bool.and_eq_true, decide_eq_true_eq]; omega)]
  exact Reads.of_pure c r

/-- How a character is written inside a string: an escape read back by `escapedChar`, or
the character itself, which is neither a quote, nor a backslash, nor a control character. -/
theorem escapeChar_cases (c : Char) :
    (∃ e, escapeChar c = '\\' :: e ∧ ∀ r, Reads escapedChar e c r) ∨
      (escapeChar c = [c] ∧ c ≠ '"' ∧ c ≠ '\\' ∧ ¬ c.toNat < 0x20) := by
  unfold escapeChar
  split
  all_goals first
    | exact .inl ⟨_, rfl, fun r => by
        unfold escapedChar; exact Reads.bind (u := [_]) (reads_next _ r) (Reads.of_pure _ r)⟩
    | rename_i hq hb hn hr ht hbs hff
      split
      · rename_i hlow
        refine .inl ⟨_, rfl, fun r => ?_⟩
        unfold escapedChar
        exact Reads.bind (u := ['u']) (reads_next 'u' _) (reads_unicodeEscape_control hlow r)
      · rename_i hlow
        exact .inr ⟨rfl, hq, hb, hlow⟩

theorem length_le_flatMap_escapeChar (s : List Char) : s.length ≤ (s.flatMap escapeChar).length := by
  induction s with
  | nil => simp
  | cons c s ih =>
    have hc : 1 ≤ (escapeChar c).length := by
      rcases escapeChar_cases c with ⟨e, he, -⟩ | ⟨he, -⟩ <;> simp [he]
    rw [List.flatMap_cons, List.length_append, List.length_cons]
    omega

/-- A string's escaped body and closing quote are read back as the string, after the
characters already read (kept last first in `out`), given more steps than characters. -/
theorem reads_stringRest (s : List Char) :
    ∀ (out : List Char) (fuel : Nat), s.length < fuel → ∀ r,
      Reads (stringRest fuel out) (s.flatMap escapeChar ++ ['"']) (String.ofList (out.reverse ++ s)) r := by
  induction s with
  | nil =>
    intro out fuel hf r
    obtain ⟨fuel, rfl⟩ : ∃ k, fuel = k + 1 := ⟨fuel - 1, by simp at hf; omega⟩
    unfold stringRest
    simp only [List.flatMap_nil, List.nil_append, List.append_nil]
    refine Reads.bind (u := ['"']) (w := []) (reads_next '"' r) ?_
    exact Reads.of_pure _ r
  | cons c s ih =>
    intro out fuel hf r
    obtain ⟨fuel, rfl⟩ : ∃ k, fuel = k + 1 := ⟨fuel - 1, by simp at hf; omega⟩
    have hrest := ih (c :: out) fuel (by simp at hf; omega) r
    rw [List.reverse_cons, List.append_assoc, List.singleton_append] at hrest
    rw [List.flatMap_cons, List.append_assoc]
    unfold stringRest
    rcases escapeChar_cases c with ⟨e, he, hesc⟩ | ⟨he, hq, hb, hctl⟩
    · -- an escape: the backslash, then the escaped character, then the rest
      rw [he, List.cons_append]
      refine Reads.bind (u := ['\\']) (reads_next '\\' _) ?_
      exact Reads.bind (hesc _) hrest
    · rw [he, List.singleton_append]
      refine Reads.bind (u := [c]) (reads_next c _) ?_
      simp only [hctl, if_false]
      exact hrest

/-- A string whose opening quote was taken is read back, up to and with its closing quote. -/
theorem reads_readString (s : String) (r : List Char) :
    Reads readString (s.toList.flatMap escapeChar ++ ['"']) s r := by
  unfold readString
  have hlen := length_le_flatMap_escapeChar s.toList
  refine Reads.bind (u := []) (reads_remaining _) ?_
  have h := reads_stringRest s.toList [] (((s.toList.flatMap escapeChar ++ ['"']) ++ r).length + 1)
    (by simp only [List.length_append, List.length_singleton]; omega) r
  simpa using h

/-- An object key is read back from its quoted text. -/
theorem reads_key (k : String) (r : List Char) : Reads key (quote k).toList k r := by
  unfold key
  rw [quote_toList]
  exact Reads.bind (u := ['"']) (reads_eat '"' _) (reads_readString k r)

/-- A string value is read back from its quoted text. -/
theorem reads_stringOf (expected s : String) (r : List Char) :
    Reads (stringOf expected) (quote s).toList s r := by
  unfold stringOf
  rw [← List.append_nil (quote s).toList]
  refine Reads.bind (Reads.attempt ?_) (Reads.of_pure s r)
  rw [quote_toList, List.cons_append, ← List.nil_append ('"' :: _)]
  refine Reads.bind (reads_blanks (noLeadingBlank_cons (by decide) _)) ?_
  exact Reads.bind (u := ['"']) (reads_eat '"' _) (reads_readString s r)

end Json
end QueryShield
