import Mathlib
import QueryShield.Ddl.TriggerText

/-!
# What the trigger checks can see

`TriggerText.check` decides whether a cleaned text is one trigger statement for the requested
trigger and table.  It reads the text through its words (`Screen.wordRuns`): it counts
`CREATE TRIGGER` phrases, `BEGIN`, `END` and `CASE` words, looks for a forbidden statement and a
system schema reference, and parses the header at the start.  No part of it reads a `;`.

The main result, `check_append_semicolon`, makes this precise: when a `;` and any text follow a
statement whose header parses, the verdict is the verdict on the statement alone, as long as
the words after the `;` are none of the words the checks look for (`checkedWords`).  A second
statement such as `DELETE FROM users` therefore rides along with an accepted trigger.

The argument follows the data: the words of the longer text are the words of the statement
followed by words that start after the `;` (`wordRuns_append_semicolon`); a phrase cannot run
across the `;`, since the words of a phrase are separated by blanks only (`fits_append`); and the
header is read from a prefix that the `;` does not reach (`header_append`).
-/

namespace QueryShield

section Lists

variable {α : Type} {p : α → Bool}

theorem takeWhile_append_of_head {a b : List α} (hb : ∀ c ∈ b.head?, p c = false) :
    (a ++ b).takeWhile p = a.takeWhile p := by
  induction a with
  | nil =>
    cases b with
    | nil => rfl
    | cons c b => simp [hb c rfl]
  | cons c a ih => simp only [List.cons_append, List.takeWhile_cons, ih]

theorem takeWhile_append_of_lt {a b : List α} (h : (a.takeWhile p).length < a.length) :
    (a ++ b).takeWhile p = a.takeWhile p := by
  rw [List.takeWhile_append, if_neg (by omega)]

end Lists

namespace Screen

open Text

/-- The words of a text followed by a text that starts with no word character are the words of
each, the second's spans moved by the first's length. -/
theorem wordRuns_go_append {a b : List Char} (hb : ∀ c ∈ b.head?, isWordChar c = false)
    (i : Nat) : wordRuns.go (a ++ b) i = wordRuns.go a i ++ wordRuns.go b (i + a.length) := by
  fun_induction wordRuns.go a i with
  | case1 i => simp
  | case2 c cs i hc more ih =>
    have hmore : (cs ++ b).takeWhile isWordChar = more := takeWhile_append_of_head hb
    have hlen : more.length ≤ cs.length := (List.takeWhile_prefix _).length_le
    rw [List.cons_append, wordRuns.go, if_pos hc, hmore]
    dsimp only
    rw [List.drop_append_of_le_length hlen, ih]
    simp only [List.cons_append, List.length_drop, List.length_cons]
    congr 3
    omega
  | case3 c cs i hc ih =>
    rw [List.cons_append, wordRuns.go, if_neg hc, ih]
    simp only [List.length_cons]
    congr 2
    omega

/-- Every word lies inside the text, after the starting index, and is not empty. -/
theorem wordRuns_go_bounds (t : List Char) (i : Nat) :
    ∀ x ∈ wordRuns.go t i, i ≤ x.1.start ∧ x.1.start < x.1.stop ∧ x.1.stop ≤ i + t.length := by
  fun_induction wordRuns.go t i with
  | case1 i => simp
  | case2 c cs i hc more ih =>
    have hlen : more.length ≤ cs.length := (List.takeWhile_prefix _).length_le
    intro x hx
    rcases List.mem_cons.1 hx with rfl | hx
    · simp only [List.length_cons]
      omega
    · have := ih x hx
      simp only [List.length_drop, List.length_cons] at this ⊢
      omega
  | case3 c cs i hc ih =>
    intro x hx
    have := ih x hx
    simp only [List.length_cons]
    omega

/-- The characters of the words do not depend on where the count starts. -/
theorem wordRuns_go_chars (t : List Char) (i j : Nat) :
    (wordRuns.go t i).map Prod.snd = (wordRuns.go t j).map Prod.snd := by
  fun_induction wordRuns.go t i generalizing j with
  | case1 i => simp [wordRuns.go]
  | case2 c cs i hc more ih =>
    rw [wordRuns.go, if_pos hc, List.map_cons, List.map_cons, ih]
  | case3 c cs i hc ih =>
    rw [wordRuns.go, if_neg hc, ih]

end Screen

namespace TriggerText

open Text

/-- The words the checks look for: the first word of every phrase they search
(`CREATE TRIGGER`, `END IF` and the other block ends, the forbidden statements), the words they
count and the system schemas. -/
def checkedWords : List String :=
  "create" :: "BEGIN" :: "END" :: "CASE" :: forbidden.filterMap List.head? ++ systemSchemas

/-- The words of a text with a `;` and more text after it: the words of the text, then words
that start after the `;`. -/
theorem wordRuns_append_semicolon (t rest : List Char) :
    Screen.wordRuns (t ++ ';' :: rest) =
      Screen.wordRuns t ++ Screen.wordRuns.go rest (t.length + 1) := by
  unfold Screen.wordRuns
  rw [Screen.wordRuns_go_append (by simp; decide) 0, Screen.wordRuns.go, if_neg (by decide),
    Nat.zero_add]

/-- Whether two words are separated by blanks only does not depend on text after the second. -/
theorem blankBetween_append {t b : List Char} {x y : Word} (hx : x.1.stop ≤ t.length)
    (hy : y.1.start ≤ t.length) : blankBetween (t ++ b) x y = blankBetween t x y := by
  unfold blankBetween
  rw [List.drop_append_of_le_length hx, List.take_append_of_le_length (by simp; omega)]

/-- A word before a `;` and a word after it are not separated by blanks only. -/
theorem blankBetween_semicolon {t rest : List Char} {x y : Word} (hx : x.1.stop ≤ t.length)
    (hy : t.length < y.1.start) : blankBetween (t ++ ';' :: rest) x y = false := by
  have hsemi : ';' ∈ ((t ++ ';' :: rest).drop x.1.stop).take (y.1.start - x.1.stop) := by
    obtain ⟨k, hk⟩ : ∃ k, y.1.start - x.1.stop - (t.drop x.1.stop).length = k + 1 :=
      ⟨_, (Nat.succ_pred_eq_of_pos (by simp; omega)).symm⟩
    rw [List.drop_append_of_le_length hx, List.take_append, hk, List.take_succ_cons]
    simp
  have hgap : (((t ++ ';' :: rest).drop x.1.stop).take (y.1.start - x.1.stop)).all isBlank =
      false := List.all_eq_false.2 ⟨';', hsemi, by decide⟩
  simp [blankBetween, hgap]

section Phrases

variable {t rest : List Char}

/-- A phrase that matches in the longer text needs as many words as it has. -/
theorem length_le_of_fits {xs : List Word} {ws : List String} (h : phrases.fits t xs ws = true) :
    ws.length ≤ xs.length := by
  fun_induction phrases.fits t xs ws with
  | case1 => simp
  | case2 => simp
  | case3 x y more w ws ih =>
    simp only [Bool.and_eq_true, Bool.or_eq_true, List.isEmpty_iff] at h
    rcases h.2 with rfl | ⟨-, h⟩
    · simp
    · have := ih h
      simp only [List.length_cons] at this ⊢
      omega
  | case4 => simp_all

/-- A phrase whose first word is not the word at hand does not start there. -/
theorem fits_of_wordIs_false {x : Word} {xs : List Word} {w : String} {ws : List String}
    (h : wordIs x w = false) : phrases.fits t (x :: xs) (w :: ws) = false := by
  cases xs <;> cases ws <;> simp [phrases.fits, h]

/-- Over words of the text, a phrase reads the same with a `;` and more words after them: it
cannot go on across the `;`. -/
theorem fits_cons_append {ys : List Word} (hys : ∀ y ∈ ys, t.length < y.1.start) :
    ∀ (x : Word) (xs : List Word), (∀ z ∈ x :: xs, z.1.start < z.1.stop ∧ z.1.stop ≤ t.length) →
      ∀ ws, phrases.fits (t ++ ';' :: rest) (x :: (xs ++ ys)) ws = phrases.fits t (x :: xs) ws := by
  intro x xs
  induction xs generalizing x with
  | nil =>
    intro hx ws
    rcases ws with _ | ⟨w, _ | ⟨m, more⟩⟩
    · simp [phrases.fits]
    · cases ys <;> simp [phrases.fits]
    · -- the phrase would need the first word after the `;`
      cases ys with
      | nil => simp [phrases.fits]
      | cons y ys =>
        simp [phrases.fits, blankBetween_semicolon (hx x (by simp)).2 (hys y (by simp))]
  | cons x' xs ih =>
    intro hx ws
    have hx' := hx x' (by simp)
    rcases ws with _ | ⟨w, _ | ⟨m, more⟩⟩
    · simp [phrases.fits]
    · simp [phrases.fits]
    · rw [List.cons_append, phrases.fits, phrases.fits,
        ih x' (fun z hz => hx z (List.mem_cons_of_mem _ hz)),
        blankBetween_append (hx x (by simp)).2 (by omega)]

/-- Words that start no phrase give no phrase. -/
theorem phrases_go_eq_nil {w : String} {ws : List String} {ys : List Word}
    (hys : ∀ y ∈ ys, wordIs y w = false) : phrases.go t (w :: ws) ys = [] := by
  induction ys with
  | nil => simp [phrases.go]
  | cons y ys ih =>
    rw [phrases.go, if_neg (by simp [fits_of_wordIs_false (hys y (by simp))]),
      ih fun z hz => hys z (List.mem_cons_of_mem _ hz)]

/-- The phrases of a text with a `;` and more words after it are the phrases of the text, when
no word after the `;` starts the phrase. -/
theorem phrases_go_append {ys : List Word} {w : String} {ws : List String}
    (hys : ∀ y ∈ ys, t.length < y.1.start ∧ wordIs y w = false) {xs : List Word}
    (hxs : ∀ z ∈ xs, z.1.start < z.1.stop ∧ z.1.stop ≤ t.length) :
    phrases.go (t ++ ';' :: rest) (w :: ws) (xs ++ ys) = phrases.go t (w :: ws) xs := by
  have hpos : ∀ y ∈ ys, t.length < y.1.start := fun y hy => (hys y hy).1
  fun_induction phrases.go t (w :: ws) xs with
  | case1 => exact phrases_go_eq_nil fun y hy => (hys y hy).2
  | case2 x more hfit last ih =>
    have hlen := length_le_of_fits hfit
    simp only [List.length_cons] at hlen
    rw [List.cons_append, phrases.go, fits_cons_append hpos x more hxs, if_pos hfit]
    dsimp only
    -- the phrase ends at a word of the text, so it is the same phrase
    rw [← List.cons_append, List.take_append_of_le_length (by simp; omega),
      List.drop_append_of_le_length (by simp; omega),
      ih fun z hz => hxs z (List.mem_cons_of_mem _ (List.mem_of_mem_drop hz))]
  | case3 x more hnot ih =>
    rw [List.cons_append, phrases.go, fits_cons_append hpos x more hxs, if_neg hnot, ih fun z hz => hxs z (List.mem_cons_of_mem _ hz)]

/-- The text of a span that ends inside a text does not depend on what follows. -/
theorem spanText_append {b : List Char} {start stop : Nat} (h : stop ≤ t.length) :
    spanText (t ++ b) ⟨start, stop⟩ = spanText t ⟨start, stop⟩ := by
  unfold spanText
  by_cases hs : start ≤ t.length
  · rw [List.drop_append_of_le_length hs, List.take_append_of_le_length (by simp; omega)]
  · rw [show stop - start = 0 by omega]
    simp

/-- The last word a phrase takes is one of the words. -/
theorem lastWord_mem (x : Word) (xs : List Word) (n : Nat) :
    ((x :: xs).take n).getLast?.getD x ∈ x :: xs := by
  cases h : ((x :: xs).take n).getLast? with
  | none => simp
  | some z => exact List.mem_of_mem_take (List.mem_of_getLast? h)

/-- Every forbidden statement starts with a checked word. -/
theorem forbidden_head {ws : List String} (h : ws ∈ forbidden) :
    ∃ w more, ws = w :: more ∧ w ∈ checkedWords := by
  cases ws with
  | nil => exact absurd h (by decide)
  | cons w more =>
    refine ⟨w, more, rfl, ?_⟩
    simp only [checkedWords, List.cons_append, List.mem_cons, List.mem_append, List.mem_filterMap]
    exact .inr (.inr (.inr (.inr (.inl ⟨w :: more, h, rfl⟩))))

theorem firstForbidden_go_eq_none {ys : List Word}
    (hys : ∀ y ∈ ys, ∀ w ∈ checkedWords, wordIs y w = false) : firstForbidden.go t ys = none := by
  induction ys with
  | nil => rfl
  | cons y ys ih =>
    have hnone : forbidden.find? (fun ws => phrases.fits t (y :: ys) ws) = none := by
      refine List.find?_eq_none.2 fun ws hws => ?_
      obtain ⟨w, more, rfl, hw⟩ := forbidden_head hws
      simp [fits_of_wordIs_false (hys y (by simp) w hw)]
    simp only [firstForbidden.go, hnone]
    exact ih fun z hz => hys z (List.mem_cons_of_mem _ hz)

/-- The first forbidden statement of a text with a `;` and unchecked words after it is the
text's own. -/
theorem firstForbidden_go_append {ys : List Word}
    (hys : ∀ y ∈ ys, t.length < y.1.start ∧ ∀ w ∈ checkedWords, wordIs y w = false)
    {xs : List Word} (hxs : ∀ z ∈ xs, z.1.start < z.1.stop ∧ z.1.stop ≤ t.length) :
    firstForbidden.go (t ++ ';' :: rest) (xs ++ ys) = firstForbidden.go t xs := by
  have hpos : ∀ y ∈ ys, t.length < y.1.start := fun y hy => (hys y hy).1
  induction xs with
  | nil => exact firstForbidden_go_eq_none fun y hy => (hys y hy).2
  | cons x xs ih =>
    simp only [List.cons_append, firstForbidden.go, fits_cons_append hpos x xs hxs]
    rcases hhit : forbidden.find? (fun ws => phrases.fits t (x :: xs) ws) with _ | ws
    · exact ih fun z hz => hxs z (List.mem_cons_of_mem _ hz)
    · -- the same statement is found, and it ends at a word of the text
      have hfit : phrases.fits t (x :: xs) ws = true := by simpa using List.find?_some hhit
      have hlast := hxs _ (lastWord_mem x xs ws.length)
      simp only
      rw [← List.cons_append, List.take_append_of_le_length (length_le_of_fits hfit),
        spanText_append hlast.2]

end Phrases

/-! ## The header is read from a prefix -/

section Header

variable {t b r : List Char}

theorem dropTick_append (ht : t ≠ []) : dropTick (t ++ b) = dropTick t ++ b := by
  obtain ⟨c, t, rfl⟩ := List.exists_cons_of_ne_nil ht
  by_cases hc : c = '`' <;> simp [dropTick, hc]

theorem dropTick_suffix (t : List Char) : dropTick t <:+ t := by
  unfold dropTick
  split
  · exact List.tail_suffix t
  · exact List.suffix_refl t

theorem foldPrefix_append {p : List Char} (h : p.length ≤ t.length) :
    foldPrefix (t ++ b) p = foldPrefix t p := by
  induction p generalizing t with
  | nil => cases t <;> simp [foldPrefix]
  | cons a p ih =>
    cases t with
    | nil => simp at h
    | cons c t => simp only [List.cons_append, foldPrefix, ih (by simpa using h)]

theorem length_le_of_foldPrefix {p : List Char} (h : foldPrefix t p = true) :
    p.length ≤ t.length := by
  induction p generalizing t with
  | nil => simp
  | cons a p ih =>
    cases t with
    | nil => simp [foldPrefix] at h
    | cons c t =>
      simp only [foldPrefix, Bool.and_eq_true] at h
      simpa using ih h.2

/-- What is left after a prefix read up to a run of `p` is not empty only if the run stops
inside the text. -/
theorem takeWhile_length_lt {p : Char → Bool} (h : t.drop (t.takeWhile p).length ≠ []) :
    (t.takeWhile p).length < t.length := by
  rw [Ne, List.drop_eq_nil_iff] at h
  omega

/-- A header word read with text left over reads the same with more text after it. The words
of the list differ in length by at most one, so none of them can reach past the text. -/
theorem headerWord_append {ws : List String}
    (hws : ∀ w ∈ ws, ∀ w' ∈ ws, w'.length ≤ w.length + 1)
    (h : headerWord ws t = some r) (hr : r ≠ []) : headerWord ws (t ++ b) = some (r ++ b) := by
  unfold headerWord at h ⊢
  simp only [Option.bind_eq_bind, Option.bind_eq_some_iff, Option.pure_def, Option.some.injEq,
    Option.guard_eq_some', exists_const] at h
  obtain ⟨w, hfind, hgap, rfl⟩ := h
  have hw : w ∈ ws := List.mem_of_find?_eq_some hfind
  have hfits : foldPrefix t w.toList = true := by simpa using List.find?_some hfind
  have hpre : w.length ≤ t.length := by
    have := length_le_of_foldPrefix hfits
    rwa [String.length_toList] at this
  have hlt := takeWhile_length_lt hr
  have hgap' : (List.takeWhile isBlank (List.drop w.length t)) ≠ [] := by simpa using hgap
  -- the word, a blank and a character of what is left: every word of the list fits in `t`
  have hlen : ∀ w' ∈ ws, w'.toList.length ≤ t.length := by
    intro w' hw'
    have := hws w hw w' hw'
    have := List.length_pos_of_ne_nil hgap'
    simp only [List.length_drop] at hlt
    simp only [String.length_toList]
    omega
  have hfind' : ws.find? (fun w => foldPrefix (t ++ b) w.toList) = some w := by
    rw [List.find?_congr fun w' hw' => foldPrefix_append (hlen w' hw')]
    exact hfind
  simp only [Option.bind_eq_bind, hfind', Option.bind_some]
  rw [List.drop_append_of_le_length hpre, takeWhile_append_of_lt hlt,
    List.drop_append_of_le_length hlt.le]
  simp only [hgap]
  rfl

theorem ne_nil_of_takeWhile_dropTick {p : Char → Bool}
    (h : (!(List.takeWhile p (dropTick t)).isEmpty) = true) : t ≠ [] := by
  rintro rfl
  simp [dropTick] at h

/-- A header name read with text left over reads the same with more text after it. -/
theorem headerName_append {name : String} (h : headerName t = some (name, r)) (hr : r ≠ []) :
    headerName (t ++ b) = some (name, r ++ b) := by
  unfold headerName at h ⊢
  simp only [Option.bind_eq_bind, Option.bind_eq_some_iff, Option.pure_def, Option.some.injEq,
    Prod.mk.injEq, Option.guard_eq_some', exists_const] at h
  obtain ⟨hname, hgap, rfl, rfl⟩ := h
  -- a gap follows the name, so the name stops inside the text; a character follows the gap
  have hlt₂ := takeWhile_length_lt hr
  have hu := ne_nil_of_takeWhile_dropTick hgap
  have hlt₁ := takeWhile_length_lt hu
  have ht : t ≠ [] := by
    rintro rfl
    simp [dropTick] at hlt₁
  dsimp only
  rw [dropTick_append ht, takeWhile_append_of_lt hlt₁, List.drop_append_of_le_length hlt₁.le,
    dropTick_append hu, takeWhile_append_of_lt hlt₂, List.drop_append_of_le_length hlt₂.le]
  simp only [hname, hgap]
  rfl

theorem headerWord_suffix {ws : List String} (h : headerWord ws t = some r) : r <:+ t := by
  unfold headerWord at h
  simp only [Option.bind_eq_bind, Option.bind_eq_some_iff, Option.pure_def, Option.some.injEq,
    Option.guard_eq_some', exists_const] at h
  obtain ⟨w, -, -, rfl⟩ := h
  exact (List.drop_suffix _ _).trans (List.drop_suffix _ _)

theorem headerName_suffix {name : String} (h : headerName t = some (name, r)) : r <:+ t := by
  unfold headerName at h
  simp only [Option.bind_eq_bind, Option.bind_eq_some_iff, Option.pure_def, Option.some.injEq,
    Prod.mk.injEq, Option.guard_eq_some', exists_const] at h
  obtain ⟨-, -, -, rfl⟩ := h
  exact (List.drop_suffix _ _).trans <| (dropTick_suffix _).trans <|
    (List.drop_suffix _ _).trans (dropTick_suffix _)

/-- The header is read from a prefix of the statement: text after it changes nothing. -/
theorem header_append {p : String × String} (h : header t = some p) :
    header (t ++ b) = some p := by
  unfold header at h ⊢
  simp only [Option.bind_eq_bind, Option.bind_eq_some_iff, Option.pure_def, Option.some.injEq,
    Option.guard_eq_some', exists_const] at h
  obtain ⟨t₁, h₁, t₂, h₂, ⟨name, t₃⟩, h₃, t₄, h₄, t₅, h₅, t₆, h₆, ⟨table, t₇⟩, h₇, t₈, h₈, t₉, h₉,
    t₁₀, h₁₀, hne, rfl⟩ := h
  -- every step leaves text over, since the last one does and each leaves a suffix of the next
  have ne₁₀ : t₁₀ ≠ [] := by simpa using hne
  have ne₉ := (headerWord_suffix h₁₀).ne_nil ne₁₀
  have ne₈ := (headerWord_suffix h₉).ne_nil ne₉
  have ne₇ := (headerWord_suffix h₈).ne_nil ne₈
  have ne₆ := (headerName_suffix h₇).ne_nil ne₇
  have ne₅ := (headerWord_suffix h₆).ne_nil ne₆
  have ne₄ := (headerWord_suffix h₅).ne_nil ne₅
  have ne₃ := (headerWord_suffix h₄).ne_nil ne₄
  have ne₂ := (headerName_suffix h₃).ne_nil ne₃
  have ne₁ := (headerWord_suffix h₂).ne_nil ne₂
  simp only [Option.bind_eq_bind, headerWord_append (by decide) h₁ ne₁, Option.bind_some,
    headerWord_append (by decide) h₂ ne₂, headerName_append h₃ ne₃,
    headerWord_append (by decide) h₄ ne₄, headerWord_append (by decide) h₅ ne₅,
    headerWord_append (by decide) h₆ ne₆, headerName_append h₇ ne₇,
    headerWord_append (by decide) h₈ ne₈, headerWord_append (by decide) h₉ ne₉,
    headerWord_append (by decide) h₁₀ ne₁₀]
  have hne' : (!(t₁₀ ++ b).isEmpty) = true := by
    obtain ⟨c, t₁₀, rfl⟩ := List.exists_cons_of_ne_nil ne₁₀
    rfl
  simp only [hne']
  rfl

end Header

/-! ## A statement after a `;` -/

/-- No word of the text is one the checks look for. -/
def Unchecked (t : List Char) : Prop :=
  ∀ x ∈ Screen.wordRuns t, ∀ w ∈ checkedWords, wordIs x w = false

instance : DecidablePred Unchecked := fun t =>
  inferInstanceAs (Decidable (∀ x ∈ Screen.wordRuns t, ∀ w ∈ checkedWords, wordIs x w = false))

section Semicolon

variable {sql extra : List Char}

/-- The words after the `;` are unchecked wherever their count starts. -/
theorem Unchecked.after (h : Unchecked extra) (k : Nat) :
    ∀ y ∈ Screen.wordRuns.go extra k, ∀ w ∈ checkedWords, wordIs y w = false := by
  intro y hy w hw
  have hchars : y.2 ∈ (Screen.wordRuns extra).map Prod.snd := by
    rw [Screen.wordRuns, ← Screen.wordRuns_go_chars extra k 0]
    exact List.mem_map_of_mem hy
  obtain ⟨x, hx, hxy⟩ := List.mem_map.1 hchars
  have := h x hx w hw
  unfold wordIs at this ⊢
  rwa [← hxy]

theorem words_bounds (t : List Char) :
    ∀ z ∈ Screen.wordRuns t, z.1.start < z.1.stop ∧ z.1.stop ≤ t.length := by
  intro z hz
  have := Screen.wordRuns_go_bounds t 0 z hz
  exact ⟨this.2.1, by omega⟩

theorem words_after_start (sql extra : List Char) :
    ∀ y ∈ Screen.wordRuns.go extra (sql.length + 1), sql.length < y.1.start := by
  intro y hy
  have := Screen.wordRuns_go_bounds extra _ y hy
  omega

theorem phrases_append_semicolon (h : Unchecked extra) {w : String} (hw : w ∈ checkedWords)
    (ws : List String) : phrases (sql ++ ';' :: extra) (w :: ws) = phrases sql (w :: ws) := by
  unfold phrases
  rw [wordRuns_append_semicolon]
  exact phrases_go_append (fun y hy => ⟨words_after_start sql extra y hy, h.after _ y hy w hw⟩)
    (words_bounds sql)

theorem countWord_append_semicolon (h : Unchecked extra) {w : String} (hw : w ∈ checkedWords) :
    countWord (sql ++ ';' :: extra) w = countWord sql w := by
  have hnone : (Screen.wordRuns.go extra (sql.length + 1)).countP (wordIs · w) = 0 :=
    List.countP_eq_zero.2 fun y hy => by simp [h.after _ y hy w hw]
  unfold countWord
  rw [wordRuns_append_semicolon, List.countP_append, hnone, Nat.add_zero]

theorem firstForbidden_append_semicolon (h : Unchecked extra) :
    firstForbidden (sql ++ ';' :: extra) = firstForbidden sql := by
  unfold firstForbidden
  dsimp only
  rw [wordRuns_append_semicolon]
  exact firstForbidden_go_append
    (fun y hy => ⟨words_after_start sql extra y hy, h.after _ y hy⟩) (words_bounds sql)

/-- Whether a dot follows, after blanks, does not change when a `;` and more text come after. -/
theorem dot_after_append (u rest : List Char) :
    (((u ++ ';' :: rest).dropWhile isBlank).head? == some '.') =
      ((u.dropWhile isBlank).head? == some '.') := by
  rw [List.dropWhile_append]
  split
  · rename_i hnil
    rw [List.isEmpty_iff] at hnil
    rw [hnil, List.dropWhile_cons, if_neg (by decide)]
    rfl
  · rename_i hne
    rw [List.head?_append_of_ne_nil _ (by simpa using hne)]

theorem schemaDot_append (r rest : List Char) :
    (((dropTick (r ++ ';' :: rest)).dropWhile isBlank).head? == some '.') =
      (((dropTick r).dropWhile isBlank).head? == some '.') := by
  cases r with
  | nil =>
    simp only [List.nil_append, dropTick, List.head?_cons, Option.some.injEq]
    rw [if_neg (by decide), List.dropWhile_cons, if_neg (by decide)]
    rfl
  | cons c r => rw [dropTick_append (List.cons_ne_nil c r), dot_after_append]

theorem referencesSystemSchema_append_semicolon (h : Unchecked extra) :
    referencesSystemSchema (sql ++ ';' :: extra) = referencesSystemSchema sql := by
  have hafter : ∀ y ∈ Screen.wordRuns.go extra (sql.length + 1), ∀ w ∈ systemSchemas,
      wordIs y w = false :=
    fun y hy w hw => h.after _ y hy w (by simp [checkedWords, hw])
  unfold referencesSystemSchema
  rw [wordRuns_append_semicolon, List.any_append]
  apply Bool.eq_iff_iff.2
  simp only [Bool.or_eq_true, List.any_eq_true, Bool.and_eq_true]
  constructor
  · rintro (⟨x, hx, hs, hd⟩ | ⟨y, hy, ⟨w, hw, hyw⟩, -⟩)
    · refine ⟨x, hx, hs, ?_⟩
      rwa [List.drop_append_of_le_length (words_bounds sql x hx).2, schemaDot_append] at hd
    · simp [hafter y hy w hw] at hyw
  · rintro ⟨x, hx, hs, hd⟩
    refine .inl ⟨x, hx, hs, ?_⟩
    rwa [List.drop_append_of_le_length (words_bounds sql x hx).2, schemaDot_append]

/-- The checks give the same verdict on a statement whose header parses and on the statement
followed by a `;` and any text whose words are none of the checked words: they cannot see a
second statement. -/
theorem check_append_semicolon {name table : String} (hhead : (header sql).isSome)
    (h : Unchecked extra) : check (sql ++ ';' :: extra) name table = check sql name table := by
  obtain ⟨p, hp⟩ := Option.isSome_iff_exists.1 hhead
  have hcreate : ∀ ws, phrases (sql ++ ';' :: extra) ("create" :: ws) = phrases sql ("create" :: ws) :=
    phrases_append_semicolon h (by simp [checkedWords])
  have hend : ∀ ws, phrases (sql ++ ';' :: extra) ("END" :: ws) = phrases sql ("END" :: ws) :=
    phrases_append_semicolon h (by simp [checkedWords])
  unfold check
  simp only [hcreate, hend, firstForbidden_append_semicolon h,
    referencesSystemSchema_append_semicolon h, header_append hp, hp,
    countWord_append_semicolon h (show "BEGIN" ∈ checkedWords by simp [checkedWords]),
    countWord_append_semicolon h (show "END" ∈ checkedWords by simp [checkedWords]),
    countWord_append_semicolon h (show "CASE" ∈ checkedWords by simp [checkedWords])]

/-- A trigger that sets a value, followed by `;` and a `DELETE`: the checks accept the pair
because they accept the trigger. -/
theorem check_accepts_delete_after_trigger :
    (header "CREATE TRIGGER `t` AFTER INSERT ON `users` FOR EACH ROW SET NEW.a = 1".toList).isSome ∧
      Unchecked " DELETE FROM users".toList ∧
      check "CREATE TRIGGER `t` AFTER INSERT ON `users` FOR EACH ROW SET NEW.a = 1".toList
        "t" "users" = .ok () ∧
      check ("CREATE TRIGGER `t` AFTER INSERT ON `users` FOR EACH ROW SET NEW.a = 1".toList ++
        ';' :: " DELETE FROM users".toList) "t" "users" =
      check "CREATE TRIGGER `t` AFTER INSERT ON `users` FOR EACH ROW SET NEW.a = 1".toList
        "t" "users" := by
  have hhead : (header
      "CREATE TRIGGER `t` AFTER INSERT ON `users` FOR EACH ROW SET NEW.a = 1".toList).isSome := by
    decide +kernel
  have hextra : Unchecked " DELETE FROM users".toList := by decide +kernel
  exact ⟨hhead, hextra, by decide +kernel, check_append_semicolon hhead hextra⟩

/-- The cleaner passes such a pair through, and the second statement goes to the database with
the trigger. -/
theorem clean_keeps_statement_after_semicolon :
    clean "t" "users" "AFTER INSERT" "SET NEW.a = 1; DELETE FROM users" =
      .ok "CREATE TRIGGER `t` AFTER INSERT ON `users` FOR EACH ROW SET NEW.a = 1; DELETE FROM users" := by
  decide +kernel

end Semicolon

end TriggerText

end QueryShield
