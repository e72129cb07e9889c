import QueryShield.Cache.Glob

/-!
# The language of a glob pattern

`Glob.accepts` walks pattern and text together and remembers only the latest star: when the
two part, it goes back to that star and lets it take one character more.  Its recursion ends
because each call shortens, in this order, the text left after the latest star's run, the text
and the pattern.  This module defines the language of a pattern on its own, one rule per kind of
item (`Glob.Matches`), and proves that the matcher decides it (`Glob.accepts_iff_matches`).

One star is enough to remember because every other item takes exactly one character, and
where it leaves the pattern does not depend on which character (`take_eq_of_take`).  So from
the latest star to the current place the walk is forced (`Walk`): a match in which that star
takes fewer characters has to walk the same items over as many characters
(`Walk.matches_drop`), and an earlier star never needs another try, since the latest one can
take over whatever the earlier one would take (`afterStar_iff`).
-/

namespace QueryShield
namespace Glob

/-! ## The language -/

/-- The class after an opening bracket: whether it holds `c` (`^` first negates it), and the
pattern after its closing bracket; none when it is never closed. -/
def classAt (rest : List Char) (c : Char) : Option (Bool × List Char) :=
  if rest.head? = some '^' then (classMatch c rest.tail false).map fun r => (!r.1, r.2)
  else classMatch c rest false

/-- The texts a pattern stands for. -/
inductive Matches : List Char → List Char → Prop
  /-- The empty pattern stands for the empty text. -/
  | nil : Matches [] []
  /-- A star may stand for nothing, -/
  | star {p s : List Char} : Matches p s → Matches ('*' :: p) s
  /-- or for one more character. -/
  | starMore {p s : List Char} (c : Char) : Matches ('*' :: p) s → Matches ('*' :: p) (c :: s)
  /-- `?` stands for any one character. -/
  | any {p s : List Char} (c : Char) : Matches p s → Matches ('?' :: p) (c :: s)
  /-- A class that is closed stands for each character it holds. -/
  | oneOf {rest after s : List Char} {c : Char} :
      classAt rest c = some (true, after) → Matches after s → Matches ('[' :: rest) (c :: s)
  /-- A backslash and a character stand for that character. -/
  | escaped {p s : List Char} (c : Char) : Matches p s → Matches ('\\' :: c :: p) (c :: s)
  /-- A backslash that ends the pattern stands for itself. -/
  | lastBackslash : Matches ['\\'] ['\\']
  /-- Any other character stands for itself. -/
  | literal {p s : List Char} {c : Char} (hstar : c ≠ '*') (hany : c ≠ '?') (hclass : c ≠ '[')
      (hesc : c ≠ '\\') : Matches p s → Matches (c :: p) (c :: s)

/-- A star stands for any run of characters: the rest of the pattern matches what follows. -/
theorem matches_star_iff {p s : List Char} :
    Matches ('*' :: p) s ↔ ∃ k, Matches p (s.drop k) := by
  constructor
  · intro h
    induction s with
    | nil => cases h with
      | star h => exact ⟨0, h⟩
    | cons c s ih => cases h with
      | star h => exact ⟨0, h⟩
      | starMore _ h =>
        obtain ⟨k, hk⟩ := ih h
        exact ⟨k + 1, hk⟩
      | literal hstar => exact absurd rfl hstar
  · rintro ⟨k, hk⟩
    induction k generalizing s with
    | zero => exact .star hk
    | succ k ih =>
      cases s with
      | nil => exact .star hk
      | cons c s => exact .starMore c (ih hk)

/-- Only stars stand for the empty text. -/
theorem matches_nil_iff {p : List Char} : Matches p [] ↔ p.all (· == '*') = true := by
  induction p with
  | nil => exact ⟨fun _ => rfl, fun _ => .nil⟩
  | cons c p ih =>
    constructor
    · intro h
      cases h with
      | star h => simpa using ih.1 h
    · intro h
      simp only [List.all_cons, Bool.and_eq_true, beq_iff_eq] at h
      obtain ⟨rfl, hp⟩ := h
      exact .star (ih.2 hp)

/-! ## One item at a time -/

theorem take_any (p : List Char) (c : Char) : take ('?' :: p) c = some p := rfl

theorem take_escaped (d : Char) (p : List Char) (c : Char) :
    take ('\\' :: d :: p) c = if d == c then some p else none := rfl

theorem take_lastBackslash (c : Char) : take ['\\'] c = if '\\' == c then some [] else none := rfl

theorem take_literal {d : Char} (p : List Char) (c : Char) (hstar : d ≠ '*') (hany : d ≠ '?')
    (hclass : d ≠ '[') (hesc : d ≠ '\\') : take (d :: p) c = if d == c then some p else none := by
  unfold take
  split <;> simp_all

theorem take_bracket_caret (more : List Char) (c : Char) :
    take ('[' :: '^' :: more) c =
      (classMatch c more false).bind fun r => if r.1 then none else some r.2 := by
  simp only [take]
  rcases classMatch c more false with _ | ⟨found, after⟩ <;> simp
  cases found <;> rfl

theorem take_bracket_plain {rest : List Char} (h : rest.head? ≠ some '^') (c : Char) :
    take ('[' :: rest) c =
      (classMatch c rest false).bind fun r => if r.1 then some r.2 else none := by
  simp only [take]
  -- the split on the class's result leaves the negation to be read off `rest`
  split
  · rename_i found after hcm
    split at hcm
    · simp at h
    · simp only at hcm
      simp [hcm]
  · rename_i hcm
    split at hcm
    · simp at h
    · simp only at hcm
      simp [hcm]

/-- An opening bracket takes a character exactly when its class holds it. -/
theorem take_bracket {rest after : List Char} {c : Char} :
    take ('[' :: rest) c = some after ↔ classAt rest c = some (true, after) := by
  unfold classAt
  by_cases h : rest.head? = some '^'
  · obtain ⟨more, rfl⟩ : ∃ more, rest = '^' :: more := by
      rcases rest with _ | ⟨d, more⟩ <;> simp_all
    simp only [take_bracket_caret, List.head?_cons, List.tail_cons, if_true]
    rcases classMatch c more false with _ | ⟨found, after'⟩ <;> simp
  · rw [take_bracket_plain h, if_neg h]
    rcases classMatch c rest false with _ | ⟨found, after'⟩ <;> simp

/-- Where a class ends does not depend on the character it is asked about. -/
theorem classMatch_after (c d : Char) (items : List Char) (f g : Bool) :
    (classMatch c items f).map Prod.snd = (classMatch d items g).map Prod.snd := by
  fun_induction classMatch c items f generalizing g with
  | case1 | case2 => simp [classMatch]
  | case3 _ _ _ _ h ih | case4 _ _ _ _ h ih | case6 _ _ _ _ _ _ _ h ih
  | case7 _ _ _ _ _ _ _ h ih =>
    simp only [classMatch, h]
    exact ih _
  | case5 _ _ _ _ ih | case8 _ _ _ _ _ _ _ ih =>
    simp only [classMatch, *]
    exact ih _

theorem classAt_after {rest a b : List Char} {c d : Char} {x y : Bool}
    (hc : classAt rest c = some (x, a)) (hd : classAt rest d = some (y, b)) : a = b := by
  unfold classAt at hc hd
  by_cases h : rest.head? = some '^'
  · have hafter := classMatch_after c d rest.tail false false
    simp only [h, if_true] at hc hd
    rcases hmc : classMatch c rest.tail false with _ | ⟨x', a'⟩ <;>
      rcases hmd : classMatch d rest.tail false with _ | ⟨y', b'⟩ <;> simp_all
  · have hafter := classMatch_after c d rest false false
    simp only [h, if_false] at hc hd
    simp_all

/-- An item takes a character to a place that does not depend on the character. -/
theorem take_eq_of_take {p a b : List Char} {c d : Char} (hc : take p c = some a)
    (hd : take p d = some b) : a = b := by
  rcases p with _ | ⟨e, r⟩
  · cases hc
  by_cases hstar : e = '*'
  · subst hstar; cases hc
  by_cases hany : e = '?'
  · subst hany; rw [take_any] at hc hd; simp_all
  by_cases hclass : e = '['
  · subst hclass
    obtain ⟨x, hx⟩ : ∃ x, classAt r c = some (x, a) := ⟨true, take_bracket.1 hc⟩
    exact classAt_after hx (take_bracket.1 hd)
  by_cases hesc : e = '\\'
  · subst hesc
    rcases r with _ | ⟨e', r⟩
    · rw [take_lastBackslash] at hc hd; simp_all
    · rw [take_escaped] at hc hd; simp_all
  rw [take_literal _ _ hstar hany hclass hesc] at hc hd
  simp_all

/-- An item that takes a character is no star. -/
theorem take_head {p a : List Char} {c : Char} (h : take p c = some a) :
    p.head? ≠ some '*' := by
  rcases p with _ | ⟨e, r⟩
  · simp
  · rintro he
    simp only [List.head?_cons, Option.some.injEq] at he
    subst he
    cases h

theorem head_ne_star {p : List Char} (h : ∀ after, p = '*' :: after → False) :
    p.head? ≠ some '*' := by
  rcases p with _ | ⟨e, r⟩
  · simp
  · intro he
    simp only [List.head?_cons, Option.some.injEq] at he
    exact h r (by rw [he])

/-- A character item takes exactly its own character. -/
theorem ite_beq_eq_some {d c : Char} {p a : List Char} :
    (if d == c then some p else none) = some a ↔ d = c ∧ p = a := by
  by_cases h : d = c <;> simp [h]

/-- Before anything but a star, a text that is not empty matches exactly when the first item
takes its first character and the rest of the pattern matches the rest of the text. -/
theorem matches_cons_iff {p s : List Char} {c : Char} (hp : p.head? ≠ some '*') :
    Matches p (c :: s) ↔ ∃ a, take p c = some a ∧ Matches a s := by
  rcases p with _ | ⟨e, r⟩
  · exact ⟨fun h => (nomatch h), fun ⟨_, h, _⟩ => (nomatch h)⟩
  have hstar : e ≠ '*' := fun he => hp (by simp [he])
  -- one case per kind of item; the literal rule is refuted by the item's own character
  by_cases hany : e = '?'
  · subst hany
    rw [take_any]
    constructor
    · intro h
      cases h with
      | any _ h => exact ⟨r, rfl, h⟩
      | literal _ h => exact absurd rfl h
    · rintro ⟨a, ⟨⟩, h⟩
      exact .any c h
  by_cases hclass : e = '['
  · subst hclass
    constructor
    · intro h
      cases h with
      | oneOf hc h => exact ⟨_, take_bracket.2 hc, h⟩
      | literal _ _ h => exact absurd rfl h
    · rintro ⟨a, ha, h⟩
      exact .oneOf (take_bracket.1 ha) h
  by_cases hesc : e = '\\'
  · subst hesc
    rcases r with _ | ⟨d, r⟩
    · rw [take_lastBackslash]
      constructor
      · intro h
        cases h with
        | lastBackslash => exact ⟨[], by simp, .nil⟩
        | literal _ _ _ h => exact absurd rfl h
      · rintro ⟨a, ha, h⟩
        obtain ⟨rfl, rfl⟩ := ite_beq_eq_some.1 ha
        cases h
        exact .lastBackslash
    · rw [take_escaped]
      constructor
      · intro h
        cases h with
        | escaped _ h => exact ⟨r, by simp, h⟩
        | literal _ _ _ h => exact absurd rfl h
      · rintro ⟨a, ha, h⟩
        obtain ⟨rfl, rfl⟩ := ite_beq_eq_some.1 ha
        exact .escaped d h
  rw [take_literal r c hstar hany hclass hesc]
  constructor
  · intro h
    cases h with
    | literal _ _ _ _ h => exact ⟨r, by simp, h⟩
    | star => exact absurd rfl hstar
    | starMore => exact absurd rfl hstar
    | any => exact absurd rfl hany
    | oneOf => exact absurd rfl hclass
    | escaped => exact absurd rfl hesc
    | lastBackslash => exact absurd rfl hesc
  · rintro ⟨a, ha, h⟩
    obtain ⟨rfl, rfl⟩ := ite_beq_eq_some.1 ha
    exact .literal hstar hany hclass hesc h

/-- An item that takes a character needs one: it never matches the empty text. -/
theorem not_matches_nil_of_take {p a : List Char} {c : Char} (h : take p c = some a) :
    ¬Matches p [] := by
  intro hv
  rcases p with _ | ⟨e, r⟩
  · cases h
  · have hall := matches_nil_iff.1 hv
    simp only [List.all_cons, Bool.and_eq_true, beq_iff_eq] at hall
    exact take_head h (by simp [hall.1])

/-- Where an item takes a character, what is left matches exactly what the pattern matched. -/
theorem matches_cons_of_take {p a s : List Char} {c : Char} (h : take p c = some a) :
    Matches p (c :: s) ↔ Matches a s := by
  rw [matches_cons_iff (take_head h)]
  exact ⟨fun ⟨b, hb, hm⟩ => (Option.some.inj (h.symm.trans hb)) ▸ hm, fun hm => ⟨a, h, hm⟩⟩

/-! ## The forced walk after a star -/

/-- `Walk p w q`: reading the text `w` from the pattern `p` item by item, with no star on the
way, leaves the pattern `q`. -/
inductive Walk : List Char → List Char → List Char → Prop
  | here {p : List Char} : Walk p [] p
  | step {p a w q : List Char} {c : Char} : take p c = some a → Walk a w q → Walk p (c :: w) q

theorem Walk.snoc {p w q a : List Char} {c : Char} (hw : Walk p w q) (h : take q c = some a) :
    Walk p (w ++ [c]) a := by
  induction hw with
  | here => exact .step h .here
  | step hs _ ih => exact .step hs (ih h)

/-- A walk reads its text: what follows it matches from where the walk ends. -/
theorem Walk.matches_append_iff {p w q : List Char} (hw : Walk p w q) (s : List Char) :
    Matches p (w ++ s) ↔ Matches q s := by
  induction hw with
  | here => rfl
  | step h _ ih => rw [List.cons_append, matches_cons_of_take h, ih]

/-- Any match from the start of a walk reads at least as many characters as the walk, and
ends with a match from where the walk ends: the walk's items take one character each. -/
theorem Walk.matches_drop {p w q v : List Char} (hw : Walk p w q) (hv : Matches p v) :
    w.length ≤ v.length ∧ Matches q (v.drop w.length) := by
  induction hw generalizing v with
  | here => exact ⟨Nat.zero_le _, hv⟩
  | step h _ ih =>
    rcases v with _ | ⟨d, v⟩
    · exact absurd hv (not_matches_nil_of_take h)
    · obtain ⟨b, hb, hm⟩ := (matches_cons_iff (take_head h)).1 hv
      obtain ⟨hlen, hq⟩ := ih ((take_eq_of_take hb h) ▸ hm)
      exact ⟨by simpa using hlen, by simpa using hq⟩

/-! ## The matcher -/

/-- After a star: with `resume` the pattern after the latest star, `mark` the text from where
its run ends, and the walk from there forced up to the current place, the matcher decides
whether that star and the rest of the pattern match the text from the mark. -/
theorem afterStar_iff {resume mark pattern text : List Char} (h : text.length ≤ mark.length)
    {w : List Char} (hw : Walk resume w pattern) (hmark : mark = w ++ text) :
    afterStar resume mark pattern text h = true ↔ Matches ('*' :: resume) mark := by
  fun_induction afterStar resume mark pattern text h generalizing w with
  | case1 resume mark pattern _ _ =>
    -- the text is used up: the pattern must be stars, and no shorter run helps
    subst hmark
    rw [List.append_nil, ← matches_nil_iff]
    constructor
    · intro hq
      exact .star (by simpa using (hw.matches_append_iff []).2 hq)
    · intro hm
      obtain ⟨k, hk⟩ := matches_star_iff.1 hm
      obtain ⟨-, hq⟩ := hw.matches_drop hk
      rwa [List.drop_drop, List.drop_eq_nil_of_le (by simp)] at hq
  | case2 resume mark c rest _ after _ ih =>
    -- a new star: it takes over from the latest one
    rw [ih .here (by simp)]
    subst hmark
    constructor
    · intro hm
      exact .star ((hw.matches_append_iff _).2 hm)
    · intro hm
      obtain ⟨k, hk⟩ := matches_star_iff.1 hm
      obtain ⟨-, hq⟩ := hw.matches_drop hk
      obtain ⟨j, hj⟩ := matches_star_iff.1 hq
      refine matches_star_iff.2 ⟨k + j, ?_⟩
      have hdrop : ((w ++ c :: rest).drop k).drop w.length = (c :: rest).drop k := by
        rw [List.drop_drop, Nat.add_comm, ← List.drop_drop, List.drop_left]
      rwa [hdrop, List.drop_drop] at hj
  | case3 resume mark pattern c rest _ after htake _ _ ih =>
    -- an item takes the character: the walk goes one further
    simp only [htake]
    exact ih (hw.snoc htake) (by simp [hmark])
  | case4 resume pattern c rest _ _ _ _ =>
    simp at hmark
  | case5 resume pattern c rest htake x mark' _ hne _ ih =>
    -- a mismatch: the latest star takes one character more
    simp only [htake]
    rw [ih .here (by simp)]
    constructor
    · exact .starMore x
    · intro hm
      cases hm with
      | star hm =>
        obtain ⟨a, ha, -⟩ :=
          (matches_cons_iff (head_ne_star hne)).1 ((hw.matches_append_iff _).1 (hmark ▸ hm))
        simp [htake] at ha
      | starMore _ hm => exact hm
      | literal hstar => exact absurd rfl hstar

/-- Before the first star the matcher decides the language outright. -/
theorem beforeStar_iff (pattern text : List Char) :
    beforeStar pattern text = true ↔ Matches pattern text := by
  fun_induction beforeStar pattern text with
  | case1 pattern => exact matches_nil_iff.symm
  | case2 c rest after => exact afterStar_iff _ .here (by simp)
  | case3 pattern c rest after htake _ ih =>
    simp only [htake]
    rw [ih, matches_cons_of_take htake]
  | case4 pattern c rest htake hne =>
    simp only [htake, Bool.false_eq_true, false_iff]
    intro hm
    obtain ⟨a, ha, -⟩ := (matches_cons_iff (head_ne_star hne)).1 hm
    simp [htake] at ha

/-- The matcher decides the language of the pattern. -/
theorem accepts_iff_matches (pattern text : String) :
    accepts pattern text = true ↔ Matches pattern.toList text.toList :=
  beforeStar_iff _ _

end Glob
end QueryShield
