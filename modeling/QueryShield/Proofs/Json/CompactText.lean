import Mathlib
import QueryShield.Json.Reader
import QueryShield.Proofs.Number.ExchangeText

/-!
# The compact text of a JSON value determines the value

Structural characters are never confused with content in the compact text: a string's
characters are escaped so that no unescaped quote stands inside it, a number is a run of
number characters that no bracket, brace or comma continues, and every other value starts
with its own character.  So reading the text from the left recovers the value and what
follows it (`compact_append_inj`), and two well-formed values with one compact text are one
value (`compact_injective`).

Well-formed values are those a JSON document can hold: a negative integer is held as
`signed` and only then, a double is finite (an infinity or not-a-number has no JSON number
and would print as `null`), and an object has no key twice.
-/

namespace QueryShield

/-! ## Numbers -/

namespace JsonNumber

/-- A number as the JSON number type holds it: `signed` only for negative integers, and
only finite doubles. -/
def WellFormed : JsonNumber → Prop
  | .unsigned _ => True
  | .signed n => n < 0
  | .float x => x.isFinite = true

/-- The number a number text writes: a double when it shows a point or an exponent, an
integer otherwise. -/
def ofText (t : List Char) : JsonNumber :=
  if '.' ∈ t ∨ 'e' ∈ t then .float (Binary64.readExchange (String.ofList t))
  else if t.head? = some '-' then .signed (-(Binary64.digitValue (t.drop 1) : Int))
  else .unsigned (Binary64.digitValue t)

theorem text_unsigned_toList (n : Nat) : (unsigned n).text.toList = Nat.toDigits 10 n :=
  Binary64.toString_toList n

theorem text_negSucc_toList (n : Nat) :
    (signed (Int.negSucc n)).text.toList = '-' :: Nat.toDigits 10 (n + 1) := by
  simp [text, Int.repr, Nat.toList_repr]

/-- A well-formed number is read back from its text. -/
theorem ofText_text {n : JsonNumber} (h : n.WellFormed) : ofText n.text.toList = n := by
  cases n with
  | unsigned m =>
    have hd := Binary64.isDigits_toDigits m
    obtain ⟨c, rest, hcr⟩ := List.exists_cons_of_ne_nil (Nat.toDigits_ne_nil (n := m) (b := 10))
    have hc : c ≠ '-' := (hd.ne (by simp [hcr])).2.2.1
    have hpoint : '.' ∉ Nat.toDigits 10 m := fun hm => (hd.ne hm).1 rfl
    have hexp : 'e' ∉ Nat.toDigits 10 m := fun hm => (hd.ne hm).2.1 rfl
    rw [text_unsigned_toList, ofText, if_neg (by simp [hpoint, hexp]),
      if_neg (by rw [hcr]; simpa using hc), Binary64.digitValue_toDigits]
  | signed m =>
    obtain ⟨k, rfl⟩ : ∃ k, m = Int.negSucc k := Int.eq_negSucc_of_lt_zero h
    have hd := Binary64.isDigits_toDigits (k + 1)
    have hpoint : '.' ∉ Nat.toDigits 10 (k + 1) := fun hm => (hd.ne hm).1 rfl
    have hexp : 'e' ∉ Nat.toDigits 10 (k + 1) := fun hm => (hd.ne hm).2.1 rfl
    rw [text_negSucc_toList, ofText, if_neg (by simp [hpoint, hexp])]
    simp [Binary64.digitValue_toDigits, Int.negSucc_eq]
  | float x =>
    have hfin : x.isFinite = true := h
    rw [ofText, text, if_pos hfin, if_pos (Binary64.point_or_exponent_mem_exchangeText x),
      String.ofList_toList, Binary64.readExchange_exchangeText hfin]

/-- Two well-formed numbers with one text are one number. -/
theorem text_injective {n m : JsonNumber} (hn : n.WellFormed) (hm : m.WellFormed)
    (h : n.text = m.text) : n = m := by
  rw [← ofText_text hn, ← ofText_text hm, h]

/-- A well-formed number's text is made of number characters. -/
theorem isNumberChars_text {n : JsonNumber} (h : n.WellFormed) :
    Binary64.IsNumberChars n.text.toList := by
  cases n with
  | unsigned m => rw [text_unsigned_toList]; exact (Binary64.isDigits_toDigits m).isNumberChars
  | signed m =>
    obtain ⟨k, rfl⟩ : ∃ k, m = Int.negSucc k := Int.eq_negSucc_of_lt_zero h
    rw [text_negSucc_toList, Binary64.isNumberChars_cons]
    exact ⟨rfl, (Binary64.isDigits_toDigits _).isNumberChars⟩
  | float x =>
    have hfin : x.isFinite = true := h
    rw [text, if_pos hfin]
    exact Binary64.isNumberChars_exchangeText x

/-- A well-formed number's text starts with a digit or a minus sign. -/
theorem text_head {n : JsonNumber} (h : n.WellFormed) :
    ∃ c rest, n.text.toList = c :: rest ∧ (c.isDigit = true ∨ c = '-') := by
  cases n with
  | unsigned m =>
    obtain ⟨c, rest, hcr⟩ := List.exists_cons_of_ne_nil (Nat.toDigits_ne_nil (n := m) (b := 10))
    exact ⟨c, rest, by rw [text_unsigned_toList, hcr],
      .inl (Binary64.isDigits_toDigits m c (by simp [hcr]))⟩
  | signed m =>
    obtain ⟨k, rfl⟩ : ∃ k, m = Int.negSucc k := Int.eq_negSucc_of_lt_zero h
    exact ⟨'-', _, text_negSucc_toList k, .inr rfl⟩
  | float x =>
    have hfin : x.isFinite = true := h
    rw [text, if_pos hfin]
    exact Binary64.exchangeText_head x

end JsonNumber

namespace Json

/-! ## Strings -/

/-- Reads one character of a string's body: an escape sequence, or a character as itself. -/
def readEscaped : List Char → Option (Char × List Char)
  | '\\' :: '"' :: r => some ('"', r)
  | '\\' :: '\\' :: r => some ('\\', r)
  | '\\' :: 'n' :: r => some ('\n', r)
  | '\\' :: 'r' :: r => some ('\r', r)
  | '\\' :: 't' :: r => some ('\t', r)
  | '\\' :: 'b' :: r => some ('\x08', r)
  | '\\' :: 'f' :: r => some ('\x0c', r)
  | '\\' :: 'u' :: '0' :: '0' :: h :: l :: r =>
    (hexValue h).bind fun hi => (hexValue l).map fun lo => (Char.ofNat (16 * hi + lo), r)
  | c :: r => some (c, r)
  | [] => none

theorem hexValue_hexDigit {n : Nat} (h : n < 16) : hexValue (hexDigit n) = some n := by
  interval_cases n <;> decide

/-- An escaped character is read back, whatever follows it. -/
theorem readEscaped_escapeChar (c : Char) (r : List Char) :
    readEscaped (escapeChar c ++ r) = some (c, r) := by
  unfold escapeChar
  split
  · rfl
  · rfl
  · rfl
  · rfl
  · rfl
  · rfl
  · rfl
  · rename_i hq hb hn hr ht hbs hff
    split
    · rename_i hlow
      have hhi : c.toNat / 16 < 16 := by omega
      simp [readEscaped, hexValue_hexDigit hhi, hexValue_hexDigit (Nat.mod_lt _ (by omega : 0 < 16)),
        Nat.div_add_mod, Char.ofNat_toNat]
    · have hne : c ≠ '\\' := fun h => hb h
      simp only [List.singleton_append]
      unfold readEscaped
      split <;> simp_all

/-- An escaped character never starts with a quote. -/
theorem escapeChar_head (c : Char) : ∃ e rest, escapeChar c = e :: rest ∧ e ≠ '"' := by
  unfold escapeChar
  split
  all_goals first
    | exact ⟨'\\', _, rfl, by decide⟩
    | rename_i hq _ _ _ _ _ _
      split
      · exact ⟨'\\', _, rfl, by decide⟩
      · exact ⟨c, [], rfl, fun h => hq h⟩

/-- The escaped body of a string and its closing quote determine the string and what
follows. -/
theorem escaped_append_inj {s t r₁ r₂ : List Char}
    (h : s.flatMap escapeChar ++ '"' :: r₁ = t.flatMap escapeChar ++ '"' :: r₂) :
    s = t ∧ r₁ = r₂ := by
  induction s generalizing t with
  | nil =>
    cases t with
    | nil => simpa using h
    | cons d t =>
      obtain ⟨e, rest, he, hne⟩ := escapeChar_head d
      simp only [List.flatMap_nil, List.nil_append, List.flatMap_cons, he, List.cons_append,
        List.append_assoc, List.cons.injEq] at h
      exact absurd h.1.symm hne
  | cons c s ih =>
    cases t with
    | nil =>
      obtain ⟨e, rest, he, hne⟩ := escapeChar_head c
      simp only [List.flatMap_nil, List.nil_append, List.flatMap_cons, he, List.cons_append,
        List.append_assoc, List.cons.injEq] at h
      exact absurd h.1 hne
    | cons d t =>
      simp only [List.flatMap_cons, List.append_assoc] at h
      have hread := congrArg readEscaped h
      rw [readEscaped_escapeChar, readEscaped_escapeChar, Option.some.injEq, Prod.mk.injEq] at hread
      obtain ⟨rfl, hrest⟩ := hread
      obtain ⟨rfl, rfl⟩ := ih hrest
      exact ⟨rfl, rfl⟩

theorem quote_toList (s : String) :
    (quote s).toList = '"' :: s.toList.flatMap escapeChar ++ ['"'] := by
  simp [quote]

/-- A quoted string determines the string and what follows its closing quote. -/
theorem quote_append_inj {s t : String} {r₁ r₂ : List Char}
    (h : (quote s).toList ++ r₁ = (quote t).toList ++ r₂) : s = t ∧ r₁ = r₂ := by
  simp only [quote_toList, List.cons_append, List.append_assoc, List.cons.injEq, true_and] at h
  obtain ⟨hst, rfl⟩ := escaped_append_inj h
  exact ⟨String.toList_inj.1 hst, rfl⟩

/-! ## Values -/

/-- A value a JSON document can hold: its numbers well-formed, its objects without a key
twice, at every depth. -/
inductive WellFormed : Json → Prop
  | null : WellFormed .null
  | bool (b : Bool) : WellFormed (.bool b)
  | number {n : JsonNumber} (h : n.WellFormed) : WellFormed (.number n)
  | string (s : String) : WellFormed (.string s)
  | array {items : List Json} (h : ∀ x ∈ items, WellFormed x) : WellFormed (.array items)
  | object {members : List (String × Json)} (keys : (members.map Prod.fst).Nodup)
      (h : ∀ m ∈ members, WellFormed m.2) : WellFormed (.object members)

/-- What may follow a value inside a text: nothing, a comma or a closing bracket or brace. -/
def Closes (r : List Char) : Prop := ∀ c ∈ r.head?, c = ',' ∨ c = ']' ∨ c = '}'

/-- The kind of a value: which constructor it is. -/
def kind : Json → Nat
  | .null => 0
  | .bool _ => 1
  | .number _ => 2
  | .string _ => 3
  | .array _ => 4
  | .object _ => 5

/-- The kind of value a text starting with `c` holds. -/
def kindOf (c : Char) : Nat :=
  if c = 'n' then 0 else if c = 't' ∨ c = 'f' then 1 else if c = '"' then 3
  else if c = '[' then 4 else if c = '{' then 5 else 2

theorem isDigit_ne {c d : Char} (hc : c.isDigit = true) (hd : d.isDigit = false) : c ≠ d := by
  rintro rfl
  simp_all

/-- The compact text of a well-formed value starts with a character of its kind, never
with a character that may follow a value. -/
theorem compact_head {v : Json} (hv : v.WellFormed) :
    ∃ c rest, (compact v).toList = c :: rest ∧ kindOf c = v.kind ∧ ¬(c = ',' ∨ c = ']' ∨ c = '}') := by
  cases hv with
  | null => exact ⟨'n', _, rfl, rfl, by decide⟩
  | bool b => cases b <;> exact ⟨_, _, rfl, rfl, by decide⟩
  | string s =>
    exact ⟨'"', s.toList.flatMap escapeChar ++ ['"'], by simp [compact, quote_toList], rfl,
      by decide⟩
  | @array items h =>
    exact ⟨'[', (compactItems items).toList ++ [']'], by simp [compact], rfl, by decide⟩
  | @object members _ h =>
    exact ⟨'{', (compactMembers members).toList ++ ['}'], by simp [compact], rfl, by decide⟩
  | number h =>
    obtain ⟨c, rest, hcr, hc⟩ := JsonNumber.text_head h
    refine ⟨c, rest, by simp [compact, hcr], ?_⟩
    rcases hc with hc | rfl
    · simp [kindOf, kind, isDigit_ne hc (by decide : 'n'.isDigit = false),
        isDigit_ne hc (by decide : 't'.isDigit = false), isDigit_ne hc (by decide : 'f'.isDigit = false),
        isDigit_ne hc (by decide : '"'.isDigit = false), isDigit_ne hc (by decide : '['.isDigit = false),
        isDigit_ne hc (by decide : '{'.isDigit = false), isDigit_ne hc (by decide : ','.isDigit = false),
        isDigit_ne hc (by decide : ']'.isDigit = false), isDigit_ne hc (by decide : '}'.isDigit = false)]
    · exact ⟨(by decide : kindOf '-' = 2), by decide⟩

/-- Values whose texts start one text have one kind. -/
theorem kind_eq_of_append {a b : Json} (ha : a.WellFormed) (hb : b.WellFormed) {r₁ r₂ : List Char}
    (h : (compact a).toList ++ r₁ = (compact b).toList ++ r₂) : a.kind = b.kind := by
  obtain ⟨c, _, hc, hkc, -⟩ := compact_head ha
  obtain ⟨d, _, hd, hkd, -⟩ := compact_head hb
  rw [hc, hd, List.cons_append, List.cons_append, List.cons.injEq] at h
  rw [← hkc, ← hkd, h.1]

/-- A run of number characters ends where something that closes a value starts. -/
theorem append_inj_of_isNumberChars {u v r₁ r₂ : List Char} (hu : Binary64.IsNumberChars u)
    (hv : Binary64.IsNumberChars v) (h₁ : Closes r₁) (h₂ : Closes r₂) (h : u ++ r₁ = v ++ r₂) :
    u = v ∧ r₁ = r₂ := by
  have closing (c : Char) (hc : c = ',' ∨ c = ']' ∨ c = '}') : Binary64.isNumberChar c = false := by
    rcases hc with rfl | rfl | rfl <;> rfl
  induction u generalizing v with
  | nil =>
    cases v with
    | nil => exact ⟨rfl, by simpa using h⟩
    | cons d v =>
      simp only [List.nil_append, List.cons_append] at h
      subst h
      have := hv d (by simp)
      rw [closing d (h₁ d rfl)] at this
      exact absurd this Bool.false_ne_true
  | cons c u ih =>
    cases v with
    | nil =>
      simp only [List.nil_append, List.cons_append] at h
      subst h
      have := hu c (by simp)
      rw [closing c (h₂ c rfl)] at this
      exact absurd this Bool.false_ne_true
    | cons d v =>
      simp only [List.cons_append, List.cons.injEq] at h
      obtain ⟨rfl, h⟩ := h
      rw [Binary64.isNumberChars_cons] at hu hv
      obtain ⟨rfl, rfl⟩ := ih hu.2 hv.2 h
      exact ⟨rfl, rfl⟩

/-- What reading a value's text from the left gives: the value and what follows it. -/
def Determined (a : Json) : Prop :=
  ∀ {b : Json} {r₁ r₂ : List Char}, b.WellFormed → Closes r₁ → Closes r₂ →
    (compact a).toList ++ r₁ = (compact b).toList ++ r₂ → a = b ∧ r₁ = r₂

theorem compactItems_cons (x : Json) (xs : List Json) :
    (compactItems (x :: xs)).toList =
      (compact x).toList ++ (if xs = [] then [] else ',' :: (compactItems xs).toList) := by
  cases xs <;> simp [compactItems]

theorem compactMembers_cons (k : String) (v : Json) (ms : List (String × Json)) :
    (compactMembers ((k, v) :: ms)).toList =
      (quote k).toList ++ ':' :: ((compact v).toList ++
        (if ms = [] then [] else ',' :: (compactMembers ms).toList)) := by
  cases ms <;> simp [compactMembers]

theorem closes_sep_cons {α : Type} {xs : List α} {r : List Char} (t : List Char) {close : Char}
    (hclose : close = ']' ∨ close = '}') :
    Closes ((if xs = [] then [] else ',' :: t) ++ close :: r) := by
  intro c hc
  split at hc <;> simp at hc <;> subst hc <;> simp [hclose]

/-- Item texts, with the closing bracket, determine the items and what follows. -/
theorem compactItems_append_inj {xs : List Json} (hxs : ∀ x ∈ xs, x.WellFormed)
    (ih : ∀ x ∈ xs, Determined x) :
    ∀ {ys : List Json} {r₁ r₂ : List Char}, (∀ y ∈ ys, y.WellFormed) →
      (compactItems xs).toList ++ ']' :: r₁ = (compactItems ys).toList ++ ']' :: r₂ →
      xs = ys ∧ r₁ = r₂ := by
  induction xs with
  | nil =>
    intro ys r₁ r₂ hys h
    cases ys with
    | nil => simpa [compactItems] using h
    | cons y ys =>
      obtain ⟨c, _, hc, -, hcl⟩ := compact_head (hys y (by simp))
      simp only [compactItems, String.toList_empty, List.nil_append, compactItems_cons, hc,
        List.cons_append, List.cons.injEq] at h
      exact absurd (.inr (.inl h.1.symm)) hcl
  | cons x xs ihs =>
    intro ys r₁ r₂ hys h
    cases ys with
    | nil =>
      obtain ⟨c, _, hc, -, hcl⟩ := compact_head (hxs x (by simp))
      simp only [compactItems, String.toList_empty, List.nil_append, compactItems_cons, hc,
        List.cons_append, List.cons.injEq] at h
      exact absurd (.inr (.inl h.1)) hcl
    | cons y ys =>
      rw [compactItems_cons, compactItems_cons, List.append_assoc, List.append_assoc] at h
      obtain ⟨rfl, hrest⟩ := ih x (by simp) (hys y (by simp)) (closes_sep_cons _ (.inl rfl))
        (closes_sep_cons _ (.inl rfl)) h
      -- after the first item: the next items, or the closing bracket, on both sides
      by_cases hx : xs = [] <;> by_cases hy : ys = []
      · subst hx hy
        simpa using hrest
      · simp [hx, hy] at hrest
      · simp [hx, hy] at hrest
      · simp only [hx, hy, if_false, List.cons_append, List.cons.injEq, true_and] at hrest
        obtain ⟨rfl, rfl⟩ := ihs (fun x hx => hxs x (by simp [hx])) (fun x hx => ih x (by simp [hx]))
          (fun y hy => hys y (by simp [hy])) hrest
        exact ⟨rfl, rfl⟩

/-- Member texts, with the closing brace, determine the members and what follows. -/
theorem compactMembers_append_inj {ms : List (String × Json)} (hms : ∀ m ∈ ms, m.2.WellFormed)
    (ih : ∀ m ∈ ms, Determined m.2) :
    ∀ {ns : List (String × Json)} {r₁ r₂ : List Char}, (∀ m ∈ ns, m.2.WellFormed) →
      (compactMembers ms).toList ++ '}' :: r₁ = (compactMembers ns).toList ++ '}' :: r₂ →
      ms = ns ∧ r₁ = r₂ := by
  induction ms with
  | nil =>
    intro ns r₁ r₂ _ h
    cases ns with
    | nil => simpa [compactMembers] using h
    | cons n ns =>
      obtain ⟨k, v⟩ := n
      simp [compactMembers, compactMembers_cons, quote_toList] at h
  | cons m ms ihs =>
    intro ns r₁ r₂ hns h
    obtain ⟨k, v⟩ := m
    cases ns with
    | nil => simp [compactMembers, compactMembers_cons, quote_toList] at h
    | cons n ns =>
      obtain ⟨k', v'⟩ := n
      simp only [compactMembers_cons, List.append_assoc, List.cons_append] at h
      obtain ⟨rfl, hvalue⟩ := quote_append_inj h
      simp only [List.cons.injEq, true_and] at hvalue
      obtain ⟨rfl, hrest⟩ := ih (k, v) (by simp) (hns (k, v') (by simp))
        (closes_sep_cons _ (.inr rfl)) (closes_sep_cons _ (.inr rfl)) hvalue
      by_cases hx : ms = [] <;> by_cases hy : ns = []
      · subst hx hy
        simpa using hrest
      · simp [hx, hy] at hrest
      · simp [hx, hy] at hrest
      · simp only [hx, hy, if_false, List.cons_append, List.cons.injEq, true_and] at hrest
        obtain ⟨rfl, rfl⟩ := ihs (fun m hm => hms m (by simp [hm])) (fun m hm => ih m (by simp [hm]))
          (fun m hm => hns m (by simp [hm])) hrest
        exact ⟨rfl, rfl⟩

/-- Every well-formed value is read back from the left of its text. -/
theorem determined_of_wellFormed {a : Json} (ha : a.WellFormed) : Determined a := by
  induction ha with
  | null =>
    intro b r₁ r₂ hb _ _ h
    have hk := kind_eq_of_append .null hb h
    cases hb <;> simp [kind] at hk
    exact ⟨rfl, by simpa [compact] using h⟩
  | bool x =>
    intro b r₁ r₂ hb _ _ h
    have hk := kind_eq_of_append (.bool x) hb h
    cases hb <;> simp [kind] at hk
    rename_i y
    cases x <;> cases y <;> simp [compact] at h ⊢ <;> exact h
  | number hn =>
    intro b r₁ r₂ hb h₁ h₂ h
    have hk := kind_eq_of_append (.number hn) hb h
    cases hb <;> simp [kind] at hk
    rename_i m hm
    simp only [compact] at h
    obtain ⟨htext, rfl⟩ := append_inj_of_isNumberChars (JsonNumber.isNumberChars_text hn)
      (JsonNumber.isNumberChars_text hm) h₁ h₂ h
    exact ⟨by rw [JsonNumber.text_injective hn hm (String.toList_inj.1 htext)], rfl⟩
  | string s =>
    intro b r₁ r₂ hb _ _ h
    have hk := kind_eq_of_append (.string s) hb h
    cases hb <;> simp [kind] at hk
    simp only [compact] at h
    obtain ⟨rfl, rfl⟩ := quote_append_inj h
    exact ⟨rfl, rfl⟩
  | array hxs ih =>
    intro b r₁ r₂ hb _ _ h
    have hk := kind_eq_of_append (.array hxs) hb h
    cases hb <;> simp [kind] at hk
    rename_i ys hys
    simp only [compact, String.toList_append, List.append_assoc] at h
    simp only [show "[".toList = ['['] from rfl, show "]".toList = [']'] from rfl,
      List.cons_append, List.cons.injEq, true_and] at h
    obtain ⟨rfl, rfl⟩ := compactItems_append_inj hxs ih hys h
    exact ⟨rfl, rfl⟩
  | object keys hms ih =>
    intro b r₁ r₂ hb _ _ h
    have hk := kind_eq_of_append (.object keys hms) hb h
    cases hb <;> simp [kind] at hk
    rename_i ns _ hns
    simp only [compact, String.toList_append, List.append_assoc] at h
    simp only [show "\x7b".toList = ['\x7b'] from rfl, show "\x7d".toList = ['\x7d'] from rfl,
      List.cons_append, List.cons.injEq, true_and] at h
    obtain ⟨rfl, rfl⟩ := compactMembers_append_inj hms ih hns h
    exact ⟨rfl, rfl⟩

/-- Reading a compact text from the left: a well-formed value's text, followed by what may
follow a value, determines the value and what follows it. -/
theorem compact_append_inj {a b : Json} (ha : a.WellFormed) (hb : b.WellFormed)
    {r₁ r₂ : List Char} (h₁ : Closes r₁) (h₂ : Closes r₂)
    (h : (compact a).toList ++ r₁ = (compact b).toList ++ r₂) : a = b ∧ r₁ = r₂ :=
  determined_of_wellFormed ha hb h₁ h₂ h

/-- Two well-formed values with one compact text are one value. -/
theorem compact_injective {a b : Json} (ha : a.WellFormed) (hb : b.WellFormed)
    (h : compact a = compact b) : a = b := by
  have hnil : Closes [] := fun c hc => by simp at hc
  refine (compact_append_inj ha hb hnil hnil ?_).1
  rw [h]

end Json
end QueryShield
