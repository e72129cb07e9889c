import Mathlib
import QueryShield.Proofs.Clause.Grammar
import QueryShield.Proofs.Guard.Searches

/-!
# A `;` and the pre-filters

`;` is a hazard symbol, so with the symbol family chosen the family searches flag every text
that holds one (`Screen.firstOutside_symbolOccurrences`).  Such a text passes the screen only
through a pre-filter, and a number has no `;` (`Recognise.isNumeric_chars`): it passes as an
e-mail address or as a base64 data URI that carries the marker
(`Screen.inspect_semicolon_clean_iff`).

The address case narrows further.  Atoms of a local part, domain labels and the quotes around
an address hold no `;`, so in an accepted address the `;` stands in the column name before the
`=` or inside a double-quoted local part (`Recognise.semicolon_of_addressLocal`).  The column
name is whatever comes before the first blank or `=`, not only a bare name, so a text such as
`1;DROP/**/TABLE/**/users;#=a@b.cd` passes (`Screen.inspect_passes_semicolons_in_column_name`).
-/

namespace QueryShield
namespace Recognise

open Text

/-! ## The characters of an address -/

/-- A domain is made of label characters and dots. -/
theorem isDomain_chars {d : List Char} (h : isDomain d = true) :
    ∀ c ∈ d, c = '.' ∨ isLabelChar c = true := by
  intro c hc
  simp only [isDomain, Bool.and_eq_true, List.all_eq_true] at h
  have hjoin : ['.'].intercalate (d.splitOn '.') = d := List.intercalate_splitOn '.'
  rw [← hjoin] at hc
  rcases BoundClause.mem_of_mem_intercalate hc with hc | ⟨l, hl, hc⟩
  · exact .inl (by simpa using hc)
  · exact .inr ((h.1.2 l hl).2 c hc)

theorem isDomainTail_chars {d : List Char} (h : isDomainTail d = true) :
    ∀ c ∈ d, c = '.' ∨ isLabelChar c = true ∨ c = '\'' ∨ c = '"' := by
  intro c hc
  simp only [isDomainTail, Bool.or_eq_true] at h
  rcases h with h | h
  · rcases isDomain_chars h c hc with h | h
    · exact .inl h
    · exact .inr (.inl h)
  · split at h
    · rename_i q hq
      simp only [Bool.and_eq_true, Bool.or_eq_true, beq_iff_eq] at h
      obtain ⟨ys, rfl⟩ := List.getLast?_eq_some_iff.1 hq
      rw [List.dropLast_concat] at h
      rcases List.mem_append.1 hc with hc | hc
      · rcases isDomain_chars h.2 c hc with h | h
        · exact .inl h
        · exact .inr (.inl h)
      · rw [List.mem_singleton.1 hc]
        exact .inr (.inr h.1)
    · cases h

/-! ## Each reading splits the text -/

theorem quotedBody_split {t body r : List Char} (h : quotedBody t = some (body, r)) :
    t = body ++ '"' :: r := by
  fun_induction quotedBody t generalizing body r with
  | case1 => cases h
  | case2 rest =>
    cases h
    rfl
  | case3 => cases h
  | case4 c rest _ ih =>
    obtain ⟨⟨b, r'⟩, hq, he⟩ := Option.map_eq_some_iff.1 h
    simp only [Prod.mk.injEq] at he
    obtain ⟨rfl, rfl⟩ := he
    simp [ih hq]
  | case5 => cases h
  | case6 c rest _ _ _ ih =>
    obtain ⟨⟨b, r'⟩, hq, he⟩ := Option.map_eq_some_iff.1 h
    simp only [Prod.mk.injEq] at he
    obtain ⟨rfl, rfl⟩ := he
    simp [ih hq]

theorem quotedLocal_split {t loc r : List Char} (h : quotedLocal t = some (loc, r)) :
    t = loc ++ r ∧ loc.head? = some '"' := by
  unfold quotedLocal at h
  split at h
  · split at h
    · rename_i body r' hq
      split at h
      · cases h
      · cases h
        simp [quotedBody_split hq]
    · cases h
  · cases h

theorem dottedAtoms_split (t : List Char) :
    t = (dottedAtoms t).1 ++ (dottedAtoms t).2 ∧
      ∀ c ∈ (dottedAtoms t).1, c = '.' ∨ isAtomChar c = true := by
  fun_induction dottedAtoms t with
  | case1 c rest _ more body r hdot ih =>
    rw [hdot] at ih
    obtain ⟨ih1, ih2⟩ := ih
    refine ⟨?_, ?_⟩
    · have hsplit : c :: rest = more ++ (c :: rest).drop more.length :=
        (Screen.takeWhile_split _ _).1
      dsimp only at ih1 ⊢
      calc '.' :: c :: rest = '.' :: (more ++ (c :: rest).drop more.length) := by rw [← hsplit]
        _ = '.' :: (more ++ body) ++ r := by rw [ih1, List.cons_append, List.append_assoc]
    · intro d hd
      simp only [List.cons_append, List.mem_cons, List.mem_append] at hd
      rcases hd with rfl | hd | hd
      · exact .inl rfl
      · exact .inr (List.mem_takeWhile_imp hd)
      · exact ih2 d hd
  | case2 => simp
  | case3 => simp

theorem atomLocal_split {t loc r : List Char} (h : atomLocal t = some (loc, r)) :
    t = loc ++ r ∧ ∀ c ∈ loc, c = '.' ∨ isAtomChar c = true := by
  simp only [atomLocal] at h
  split at h
  · cases h
  · cases h
    obtain ⟨h1, h2⟩ := dottedAtoms_split (t.drop (t.takeWhile isAtomChar).length)
    refine ⟨?_, ?_⟩
    · rw [List.append_assoc, ← h1]
      exact (Screen.takeWhile_split _ _).1
    · intro c hc
      rcases List.mem_append.1 hc with hc | hc
      · exact .inr (List.mem_takeWhile_imp hc)
      · exact h2 c hc

/-- The column name a text may start with: the characters before the first blank or `=`. -/
def columnName (t : List Char) : List Char := t.takeWhile (fun c => !isBlank c && c != '=')

theorem afterColumnName_split {t r : List Char} (h : afterColumnName t = some r) :
    ∃ mid, t = columnName t ++ mid ++ r ∧
      ∀ c ∈ mid, isBlank c = true ∨ c = '=' := by
  simp only [afterColumnName] at h
  split at h
  · cases h
  · split at h
    · rename_i rest hrest
      cases h
      set name := t.takeWhile (fun c => !isBlank c && c != '=')
      show ∃ mid, t = name ++ mid ++ _ ∧ _
      refine ⟨(t.drop name.length).takeWhile isBlank ++ '=' :: rest.takeWhile isBlank, ?_, ?_⟩
      · calc t = name ++ t.drop name.length := (Screen.takeWhile_split _ _).1
          _ = name ++ ((t.drop name.length).takeWhile isBlank ++ '=' :: rest) := by
            rw [← hrest, List.takeWhile_append_dropWhile]
          _ = _ := by
            conv_lhs => rw [← List.takeWhile_append_dropWhile (p := isBlank) (l := rest)]
            simp
      · intro c hc
        simp only [List.mem_append, List.mem_cons] at hc
        rcases hc with hc | rfl | hc
        · exact .inl (List.mem_takeWhile_imp hc)
        · exact .inr rfl
        · exact .inl (List.mem_takeWhile_imp hc)
    · cases h

theorem mem_localStarts {t r : List Char} (h : r ∈ localStarts t) :
    ∃ s, (s = t ∨ afterColumnName t = some s) ∧ (s = r ∨ ∃ q, (q = '\'' ∨ q = '"') ∧ s = q :: r) := by
  simp only [localStarts, List.mem_flatMap, List.mem_append, Option.mem_toList,
    List.mem_singleton] at h
  obtain ⟨s, hs, hr⟩ := h
  refine ⟨s, hs.symm.imp id id, ?_⟩
  split at hr
  · rename_i q r' 
    split at hr
    · rename_i hq
      simp only [List.mem_cons, List.not_mem_nil, or_false] at hr
      rcases hr with rfl | rfl
      · simp only [Bool.or_eq_true, beq_iff_eq] at hq
        exact .inr ⟨q, hq, rfl⟩
      · exact .inl rfl
    · simp only [List.mem_singleton] at hr
      exact .inl hr.symm
  · simp only [List.mem_singleton] at hr
    exact .inl hr.symm

/-- A `;` in a text read as an address stands in the column name before the `=`, or in a
double-quoted local part: atoms, domain labels and quotes have none. -/
theorem semicolon_of_addressLocal {t loc : List Char} (h : addressLocal? t = some loc)
    (hsemi : ';' ∈ t) :
    ((afterColumnName t).isSome = true ∧ ';' ∈ columnName t) ∨ (loc.head? = some '"' ∧ ';' ∈ loc) := by
  obtain ⟨⟨l, rest⟩, hmem, hsome⟩ := List.exists_of_findSome?_eq_some h
  simp only [List.mem_flatMap] at hmem
  obtain ⟨s, hs, hread⟩ := hmem
  dsimp only at hsome
  split at hsome
  · rename_i d
    split_ifs at hsome with hd
    cases hsome
    by_cases hname : (afterColumnName t).isSome = true ∧ ';' ∈ columnName t
    · exact .inl hname
    right
    -- otherwise the `;` is in the text the local part is read from
    have hs' : ';' ∈ s := by
      obtain ⟨b, hb, hbs⟩ := mem_localStarts hs
      have hbsemi : ';' ∈ b := by
        rcases hb with rfl | hb
        · exact hsemi
        · obtain ⟨mid, ht, hmid⟩ := afterColumnName_split hb
          rw [ht] at hsemi
          simp only [List.mem_append] at hsemi
          rcases hsemi with (hn | hm) | hb'
          · exact absurd ⟨by simp [hb], hn⟩ hname
          · rcases hmid _ hm with hm | hm
            · exact absurd hm (by decide)
            · exact absurd hm (by decide)
          · exact hb'
      rcases hbs with rfl | ⟨q, hq, rfl⟩
      · exact hbsemi
      · rcases List.mem_cons.1 hbsemi with hq' | hq'
        · rcases hq with rfl | rfl <;> exact absurd hq' (by decide)
        · exact hq'
    -- and it is not in what follows the local part: `@` and a domain
    have hrest : ';' ∉ '@' :: d := by
      intro hr
      rcases List.mem_cons.1 hr with hr | hr
      · exact absurd hr (by decide)
      · rcases isDomainTail_chars hd _ hr with h | h | h | h
        · exact absurd h (by decide)
        · exact absurd h (by decide)
        · exact absurd h (by decide)
        · exact absurd h (by decide)
    simp only [localReadings, List.mem_append, Option.mem_toList] at hread
    rcases hread with hq | ha
    · obtain ⟨hsplit, hhead⟩ := quotedLocal_split hq
      rw [hsplit] at hs'
      exact ⟨hhead, (List.mem_append.1 hs').resolve_right hrest⟩
    · obtain ⟨hsplit, hchars⟩ := atomLocal_split ha
      rw [hsplit] at hs'
      rcases hchars _ ((List.mem_append.1 hs').resolve_right hrest) with h | h
      · exact absurd h (by decide)
      · exact absurd h (by decide)
  · cases hsome

/-! ## Numbers -/

theorem digitRun_split {t r : List Char} (h : digitRun t = some r) :
    t = t.takeWhile isDecimalDigit ++ r := by
  simp only [digitRun] at h
  split_ifs at h
  cases h
  exact (Screen.takeWhile_split _ _).1

/-- The body of a number, after its minus sign: digits, a point and digits. -/
theorem numberBody_chars {u : List Char}
    (h : digitRun u = some [] ∨ ∃ r, digitRun u = some ('.' :: r) ∧ digitRun r = some []) :
    ∀ c ∈ u, c = '.' ∨ isDecimalDigit c = true := by
  intro c hc
  rcases h with h | ⟨r, h, hr⟩
  · rw [digitRun_split h, List.append_nil] at hc
    exact .inr (List.mem_takeWhile_imp hc)
  · rw [digitRun_split h] at hc
    rcases List.mem_append.1 hc with hc | hc
    · exact .inr (List.mem_takeWhile_imp hc)
    · rcases List.mem_cons.1 hc with hc | hc
      · exact .inl hc
      · rw [digitRun_split hr, List.append_nil] at hc
        exact .inr (List.mem_takeWhile_imp hc)

/-- A number is made of digits, a minus sign and a point. -/
theorem isNumeric_chars {s : String} (h : isNumeric s = true) :
    ∀ c ∈ trimChars s.toList, c = '-' ∨ c = '.' ∨ isDecimalDigit c = true := by
  unfold isNumeric at h
  generalize trimChars s.toList = t at h ⊢
  dsimp only at h
  -- the text is the body of a number, after a minus sign or not
  have hminus : ∀ u : List Char, (∀ c ∈ u, c = '.' ∨ isDecimalDigit c = true) →
      ∀ c ∈ '-' :: u, c = '-' ∨ c = '.' ∨ isDecimalDigit c = true := by
    intro u hu c hc
    rcases List.mem_cons.1 hc with hc | hc
    · exact .inl hc
    · exact .inr (hu c hc)
  have hplain : ∀ u : List Char, (∀ c ∈ u, c = '.' ∨ isDecimalDigit c = true) →
      ∀ c ∈ u, c = '-' ∨ c = '.' ∨ isDecimalDigit c = true :=
    fun u hu c hc => .inr (hu c hc)
  split at h
  · rename_i heq
    split at heq
    · exact hminus _ (numberBody_chars (.inl heq))
    · exact hplain _ (numberBody_chars (.inl heq))
  · rename_i r heq
    have hr : digitRun r = some [] := by simpa using h
    split at heq
    · exact hminus _ (numberBody_chars (.inr ⟨r, heq, hr⟩))
    · exact hplain _ (numberBody_chars (.inr ⟨r, heq, hr⟩))
  · cases h

end Recognise

namespace Text

theorem mem_dropWhile_of_not {p : Char → Bool} {l : List Char} {c : Char} (hc : c ∈ l)
    (hp : p c = false) : c ∈ l.dropWhile p := by
  induction l with
  | nil => cases hc
  | cons a l ih =>
    rw [List.dropWhile_cons]
    split
    · rename_i ha
      rcases List.mem_cons.1 hc with rfl | hc
      · rw [hp] at ha
        cases ha
      · exact ih hc
    · exact hc

/-- Trimming keeps every character that is not a blank. -/
theorem mem_trimChars {cs : List Char} {c : Char} (hc : c ∈ cs) (hb : isBlank c = false) :
    c ∈ trimChars cs := by
  rw [trimChars, List.mem_reverse]
  exact mem_dropWhile_of_not (List.mem_reverse.2 (mem_dropWhile_of_not hc hb)) hb

theorem dropWhile_eq_self_of_head {p : Char → Bool} {l : List Char}
    (h : ∀ c ∈ l.head?, p c = false) : l.dropWhile p = l := by
  cases l with
  | nil => rfl
  | cons a l => simp [h a rfl]

theorem head_dropWhile {p : Char → Bool} (l : List Char) : ∀ c ∈ (l.dropWhile p).head?, p c = false := by
  intro c hc
  have := List.head?_dropWhile_not p l
  rw [hc] at this
  exact this

/-- A trimmed text is its own trimming. -/
theorem trimChars_trimChars (cs : List Char) : trimChars (trimChars cs) = trimChars cs := by
  set a := cs.dropWhile isBlank
  set b := a.reverse.dropWhile isBlank
  have ht : trimChars cs = b.reverse := rfl
  -- `b.reverse` is a prefix of `a`, so it starts, when it is not empty, where `a` does
  have hpre : b.reverse <+: a := by
    simpa using (List.dropWhile_suffix isBlank (l := a.reverse)).reverse
  have hb' : ∀ c ∈ b.reverse.head?, isBlank c = false := by
    intro c hc
    obtain ⟨k, hk⟩ := hpre
    apply head_dropWhile cs
    show c ∈ a.head?
    rw [← hk, List.head?_append, hc]
    rfl
  rw [ht, trimChars, dropWhile_eq_self_of_head hb', List.reverse_reverse,
    dropWhile_eq_self_of_head (head_dropWhile a.reverse)]

end Text

namespace Screen

open Text Recognise

/-! ## The verdict on a text with a `;` -/

/-- With the symbol family chosen, a text holding `;` passes the screen only as an e-mail
address whose `;` stands in its column name or in a double-quoted local part, or as a base64
data URI that carries the marker. -/
theorem inspect_semicolon_clean_iff {text : String} {families : Families}
    (hsemi : ';' ∈ text.toList) (hsym : families.symbols = true) :
    (inspect text families).isFlagged = false ↔
      (isEmail text = true ∧
        (((afterColumnName (trimChars text.toList)).isSome = true ∧
            ';' ∈ columnName (trimChars text.toList)) ∨
          ∃ loc, addressLocal? (trimChars text.toList) = some loc ∧
            loc.head? = some '"' ∧ ';' ∈ loc)) ∨
      (containsPart ((trimChars text.toList).map Char.toLower) base64Marker.toList = true ∧
        isBase64DataUri text = true) := by
  set u := trimChars text.toList with hu
  have hsemi' : ';' ∈ u := mem_trimChars hsemi (by decide)
  have htrim : trimChars (String.ofList u).toList = u := by
    rw [String.toList_ofList, hu, trimChars_trimChars]
  -- the recognisers trim the text again, to the same characters
  have hemail : isEmail (String.ofList u) = isEmail text := by
    unfold isEmail
    rw [htrim]
  have hdata : isBase64DataUri (String.ofList u) = isBase64DataUri text := by
    unfold isBase64DataUri
    rw [htrim]
  have hnum : isNumeric (String.ofList u) = false := by
    cases hn : isNumeric (String.ofList u)
    · rfl
    · rw [← htrim] at hsemi'
      rcases isNumeric_chars hn _ hsemi' with h | h | h
      · exact absurd h (by decide)
      · exact absurd h (by decide)
      · exact absurd h (by decide +kernel)
  have hne : u.isEmpty = false := by simpa using List.ne_nil_of_mem hsemi'
  -- the symbol search finds the `;`
  have hflag : (searchFamilies u families).isFlagged = true := by
    refine (searchFamilies_isFlagged u families).2 (.inl ⟨hsym, ?_⟩)
    refine (firstOutside_symbolOccurrences u).2 ⟨";", by simp [Lexicon.hazardSymbols], ?_⟩
    exact (List.singleton_infix_iff _ _).2 hsemi'
  by_cases he : isEmail text = true
  · have hl : inspect text families = .clean := by simp [inspect, ← hu, hemail, he]
    obtain ⟨loc, hloc⟩ : ∃ loc, addressLocal? u = some loc := by
      rw [isEmail] at he
      split at he
      · exact ⟨_, ‹_›⟩
      · cases he
    rw [hl]
    refine iff_of_true rfl (.inl ⟨he, ?_⟩)
    rcases semicolon_of_addressLocal hloc hsemi' with h | h
    · exact .inl h
    · exact .inr ⟨loc, hloc, h⟩
  · rw [Bool.not_eq_true] at he
    by_cases hm : containsPart (u.map Char.toLower) base64Marker.toList = true
    · have hl : inspect text families =
          if isBase64DataUri text then .clean else .flagged .base64 base64Marker := by
        simp [inspect, ← hu, hemail, he, hnum, hm, hdata, hne]
      rw [hl]
      by_cases hd : isBase64DataUri text = true <;> simp [hd, Verdict.isFlagged, he, hm]
    · rw [Bool.not_eq_true] at hm
      have hl : inspect text families = searchFamilies u families := by
        simp [inspect, ← hu, hemail, he, hnum, hm, hne]
      rw [hl, hflag]
      simp [he, hm]

theorem inspect_flags_semicolon_pair : (inspect "a;b" Families.onlySymbols).isFlagged = true := by
  have h := @inspect_semicolon_clean_iff "a;b" Families.onlySymbols (by decide) rfl
  cases hv : (inspect "a;b" Families.onlySymbols).isFlagged
  · rcases h.1 hv with ⟨he, -⟩ | ⟨-, hd⟩
    · exact absurd he (by decide +kernel)
    · exact absurd hd (by decide +kernel)
  · rfl

/-- A column name may hold any character but a blank and `=`, so a text that carries `;`,
comment markers and `#` before an `=` and an address passes as an e-mail address. -/
theorem inspect_passes_semicolons_in_column_name :
    inspect "1;DROP/**/TABLE/**/users;#=a@b.cd" Families.onlySymbols = .clean := by
  decide +kernel

end Screen
end QueryShield
