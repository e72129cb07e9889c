import Mathlib
import QueryShield.Proofs.Json.ValueReading

/-!
# Typed reading of compact texts

The typed readers of `Json.Decoder` read values of a known type straight from a text.  This
module shows that each of them reads back what the compact printer writes: the items of a
sequence joined by commas (`reads_seqOf`), the members of a map with their keys in order
(`reads_mapOf`), `null` or a value (`reads_optionOf_none`, `reads_optionOf_some`), booleans
(`reads_boolOf`) and records whose members are their fields in order (`reads_recordOf`).

Each item, member value or field is described by its text and what it is read as: a reader
for the parts that reads each part's text back, before anything that may follow a value,
reads the whole back.  The texts of the parts only have to start with a character that opens
a value (`OpensValue`), which the compact text of every value does (`opensValue_compact`).
-/

namespace QueryShield
namespace Json

/-- The text starts with a character that opens a value: not a blank, and not a character
that separates or closes values. -/
def OpensValue (t : List Char) : Prop :=
  ∃ c t', t = c :: t' ∧ ¬ IsBlankChar c ∧ c ≠ ',' ∧ c ≠ ']' ∧ c ≠ '}'

theorem OpensValue.ne_nil {t : List Char} (h : OpensValue t) : t ≠ [] := by
  obtain ⟨c, t', rfl, -⟩ := h
  exact List.cons_ne_nil c t'

theorem OpensValue.append {t : List Char} (h : OpensValue t) (r : List Char) :
    OpensValue (t ++ r) := by
  obtain ⟨c, t', rfl, hc⟩ := h
  exact ⟨c, t' ++ r, rfl, hc⟩

theorem opensValue_of_head {c : Char} {t : List Char}
    (hc : c = 'n' ∨ c = 't' ∨ c = 'f' ∨ c = '"' ∨ c = '[' ∨ c = '{' ∨ c = '-' ∨ c.isDigit = true) :
    OpensValue (c :: t) := by
  refine ⟨c, t, rfl, ?_⟩
  rcases hc with rfl | rfl | rfl | rfl | rfl | rfl | rfl | hd
  any_goals decide
  have h := Char.isDigit_iff_toNat.1 hd
  refine ⟨?_, ?_, ?_, ?_⟩
  · unfold IsBlankChar
    rintro (rfl | rfl | rfl | rfl) <;> simp at h
  all_goals rintro rfl; simp at h

/-- The compact text of every value opens a value. -/
theorem opensValue_compact (v : Json) : OpensValue (compact v).toList := by
  cases v with
  | null => exact opensValue_of_head (.inl rfl)
  | bool b =>
    cases b
    · rw [show (compact (.bool false)).toList = ['f', 'a', 'l', 's', 'e'] by decide]
      exact opensValue_of_head (by simp)
    · rw [show (compact (.bool true)).toList = ['t', 'r', 'u', 'e'] by decide]
      exact opensValue_of_head (by simp)
  | string s => rw [compact, quote_toList]; exact opensValue_of_head (by simp)
  | array items => simpa [compact] using opensValue_of_head (t := _) (c := '[') (by simp)
  | object ms => simpa [compact] using opensValue_of_head (t := _) (c := '{') (by simp)
  | number n =>
    rw [compact]
    cases n with
    | unsigned m =>
      obtain ⟨c, t, hct⟩ := List.exists_cons_of_ne_nil (Nat.toDigits_ne_nil (n := m) (b := 10))
      rw [JsonNumber.text_unsigned_toList, hct]
      exact opensValue_of_head (by simp [Binary64.isDigits_toDigits m c (by simp [hct])])
    | signed m =>
      cases m with
      | ofNat k =>
        obtain ⟨c, t, hct⟩ := List.exists_cons_of_ne_nil (Nat.toDigits_ne_nil (n := k) (b := 10))
        have htext : (JsonNumber.signed (Int.ofNat k)).text.toList = Nat.toDigits 10 k := by
          simp only [JsonNumber.text]
          show (Int.repr (Int.ofNat k)).toList = _
          simp [Int.repr, Nat.toList_repr]
        rw [htext, hct]
        exact opensValue_of_head (by simp [Binary64.isDigits_toDigits k c (by simp [hct])])
      | negSucc k =>
        rw [JsonNumber.text_negSucc_toList]
        exact opensValue_of_head (by simp)
    | float x =>
      by_cases hx : x.isFinite = true
      · obtain ⟨c, t, hct, hc⟩ := Binary64.exchangeText_head x
        rw [JsonNumber.text, if_pos hx, hct]
        exact opensValue_of_head (by rcases hc with hc | hc <;> simp [hc])
      · rw [JsonNumber.text, if_neg hx, show "null".toList = ['n', 'u', 'l', 'l'] by decide]
        exact opensValue_of_head (by simp)

/-! ## Sequences -/

theorem intercalate_comma_cons (t : List Char) (ts : List (List Char)) :
    [','].intercalate (t :: ts) = t ++ ts.flatMap (',' :: ·) := by
  induction ts generalizing t with
  | nil => simp
  | cons t' ts ih => simp [List.intercalate_cons_cons, ih]

/-- The compact text of a sequence's body: the items' texts joined by commas. -/
theorem compactItems_toList (xs : List Json) :
    (compactItems xs).toList = [','].intercalate (xs.map fun x => (compact x).toList) := by
  induction xs with
  | nil => simp [compactItems]
  | cons x xs ih =>
    rw [compactItems_cons, List.map_cons, intercalate_comma_cons]
    cases xs with
    | nil => simp
    | cons y ys => simp [ih, intercalate_comma_cons]

theorem length_le_intercalate_comma {ts : List (List Char)} (h : ∀ t ∈ ts, t ≠ []) :
    ts.length ≤ ([','].intercalate ts).length := by
  cases ts with
  | nil => simp
  | cons t ts =>
    have ht : 1 ≤ t.length := List.length_pos_iff.2 (h t (by simp))
    have hcommas : ts.length ≤ (ts.flatMap (',' :: ·)).length := by
      clear h
      induction ts with
      | nil => simp
      | cons u us ih => simp only [List.flatMap_cons, List.length_append, List.length_cons]; omega
    rw [intercalate_comma_cons, List.length_append, List.length_cons]
    omega

theorem reads_arrayItemStart_close (first : Bool) (r : List Char) :
    Reads (arrayItemStart first) [] false (']' :: r) := by
  unfold arrayItemStart
  exact Reads.bind (u := []) (reads_blanks (noLeadingBlank_cons (by decide) r)) (Reads.of_pure _ _)

theorem reads_arrayItemStart_first {t : List Char} (ht : OpensValue t) :
    Reads (arrayItemStart true) [] true t := by
  obtain ⟨c, t', rfl, hb, hcomma, hclose, -⟩ := ht
  unfold arrayItemStart
  refine Reads.bind (u := []) (w := []) (reads_blanks (noLeadingBlank_cons hb t')) ?_
  split
  next heq => exact absurd (by simpa using heq) hclose
  next heq => exact absurd (by simpa using heq) hcomma
  next b _ _ heq =>
    obtain rfl : c = b := by simpa using heq
    simp only [if_true]
    refine Reads.bind (u := []) (Reads.of_pure _ _) ?_
    split
    next heq' => exact absurd (by simpa using heq') hclose
    next => exact Reads.of_pure _ _
    next heq' => simp at heq'
  next heq => simp at heq

theorem reads_arrayItemStart_next {t : List Char} (ht : OpensValue t) :
    Reads (arrayItemStart false) [','] true t := by
  obtain ⟨c, t', rfl, hb, -, hclose, -⟩ := ht
  unfold arrayItemStart
  refine Reads.bind (u := []) (reads_blanks (noLeadingBlank_cons (by decide) _)) ?_
  simp only [Bool.false_eq_true, if_false]
  refine Reads.bind (u := [',']) (reads_eat ',' _) ?_
  refine Reads.bind (u := []) (reads_blanks (noLeadingBlank_cons hb t')) ?_
  split
  next heq => exact absurd (by simpa using heq) hclose
  next => exact Reads.of_pure _ _
  next heq => simp at heq

/-- The parts of a list as texts and what reading each comes to with `item`: each text
opens a value, and reading it before anything that may follow a value comes to the part's
outcome. -/
def ItemsRead {α : Type} (item : Reading α) (ps : List (List Char × Option α)) : Prop :=
  ∀ p ∈ ps, OpensValue p.1 ∧ ∀ r, Closes r → Outcome item p.1 p.2 r

theorem ItemsRead.tail {α : Type} {item : Reading α} {p : List Char × Option α}
    {ps : List (List Char × Option α)} (h : ItemsRead item (p :: ps)) : ItemsRead item ps :=
  fun q hq => h q (List.mem_cons_of_mem p hq)

theorem closes_commas {α : Type} (ps : List (List Char × α)) (r : List Char) :
    Closes (ps.flatMap (fun p => ',' :: p.1) ++ ']' :: r) := by
  cases ps <;> simp [Closes]

/-- The outcomes of the parts, after those read so far. -/
theorem mapM_cons_map {γ α : Type} (f : γ → Option α) (p : γ) (ps : List γ) (out : List α) :
    ((p :: ps).mapM f).map (out.reverse ++ ·) =
      (f p).bind fun a => (ps.mapM f).map ((a :: out).reverse ++ ·) := by
  cases hp : f p with
  | none => simp [List.mapM_cons, hp]
  | some a => cases h : ps.mapM f <;> simp [List.mapM_cons, hp, h]

/-- Items after the first, each after its comma, then the closing bracket. -/
theorem outcome_arrayItemsFrom_next {α : Type} {item : Reading α}
    {ps : List (List Char × Option α)} (hps : ItemsRead item ps) :
    ∀ (out : List α) (fuel : Nat), ps.length < fuel → ∀ r,
      Outcome (arrayItemsFrom item fuel false out) (ps.flatMap fun p => ',' :: p.1)
        ((ps.mapM Prod.snd).map (out.reverse ++ ·)) (']' :: r) := by
  induction ps with
  | nil =>
    intro out fuel hf r
    obtain ⟨fuel, rfl⟩ : ∃ k, fuel = k + 1 := ⟨fuel - 1, by simp at hf; omega⟩
    unfold arrayItemsFrom
    refine Reads.bind (u := []) (reads_arrayItemStart_close false r) ?_
    simp only [Bool.false_eq_true, if_false]
    simpa using Reads.of_pure out.reverse (']' :: r)
  | cons p ps ih =>
    intro out fuel hf r
    obtain ⟨fuel, rfl⟩ : ∃ k, fuel = k + 1 := ⟨fuel - 1, by simp at hf; omega⟩
    obtain ⟨hopen, hread⟩ := hps p (by simp)
    have hrest a := ih hps.tail (a :: out) fuel (by simp at hf; omega) r
    have hstart : Reads (arrayItemStart false) [','] true
        ((p.1 ++ ps.flatMap fun p => ',' :: p.1) ++ ']' :: r) := by
      rw [List.append_assoc]
      exact reads_arrayItemStart_next (hopen.append _)
    unfold arrayItemsFrom
    rw [List.flatMap_cons, mapM_cons_map Prod.snd]
    refine Reads.outcome_bind (u := [',']) hstart ?_
    simp only [if_true]
    exact Outcome.bind (hread _ (closes_commas ps r)) hrest

/-- A sequence's body from its first item: the items joined by commas, up to the closing
bracket, given more steps than items. -/
theorem outcome_arrayItemsFrom_first {α : Type} {item : Reading α}
    {ps : List (List Char × Option α)} (hps : ItemsRead item ps) (fuel : Nat)
    (hf : ps.length < fuel) (r : List Char) :
    Outcome (arrayItemsFrom item fuel true []) ([','].intercalate (ps.map Prod.fst))
      (ps.mapM Prod.snd) (']' :: r) := by
  obtain ⟨fuel, rfl⟩ : ∃ k, fuel = k + 1 := ⟨fuel - 1, by omega⟩
  cases ps with
  | nil =>
    unfold arrayItemsFrom
    refine Reads.bind (u := []) (reads_arrayItemStart_close true r) ?_
    exact Reads.of_pure _ _
  | cons p ps =>
    obtain ⟨hopen, hread⟩ := hps p (by simp)
    have hrest a := outcome_arrayItemsFrom_next hps.tail [a] fuel (by simp at hf; omega) r
    rw [List.map_cons, intercalate_comma_cons, List.flatMap_map]
    have hout := mapM_cons_map Prod.snd p ps []
    simp only [List.reverse_nil, List.nil_append, List.reverse_singleton, List.singleton_append,
      Option.map_id'] at hout
    unfold arrayItemsFrom
    have hopens : OpensValue ((p.1 ++ ps.flatMap fun p => ',' :: p.1) ++ ']' :: r) := by
      rw [List.append_assoc]
      exact hopen.append _
    rw [hout]
    refine Reads.outcome_bind (u := []) (reads_arrayItemStart_first hopens) ?_
    simp only [if_true]
    exact Outcome.bind (hread _ (closes_commas ps r)) (by simpa using hrest)

/-- The body of a sequence: the items joined by commas, up to the closing bracket. -/
theorem outcome_arrayItems {α : Type} {item : Reading α} {ps : List (List Char × Option α)}
    (hps : ItemsRead item ps) (r : List Char) :
    Outcome (arrayItems item) ([','].intercalate (ps.map Prod.fst)) (ps.mapM Prod.snd) (']' :: r) := by
  have hlen := @length_le_intercalate_comma (ps.map Prod.fst)
    (fun t ht => by
      obtain ⟨p, hp, rfl⟩ := List.mem_map.1 ht
      exact (hps p hp).1.ne_nil)
  unfold arrayItems
  refine Reads.outcome_bind (u := []) (reads_remaining _) ?_
  refine outcome_arrayItemsFrom_first hps _ ?_ r
  simp only [List.length_map, List.length_append, List.intercalate] at hlen ⊢
  omega

/-! ## Brackets and sequences -/

/-- A bracketed body within the nesting limit comes to what the body comes to; a failing body
fails the whole, whatever follows it. -/
theorem outcome_bracketed {α : Type} {depth : Nat} {body : Reading α} {close : Reading Unit}
    {o : Char} {u w r : List Char} {v : Option α} (hd : 1 < depth)
    (hbody : Outcome body u v (w ++ r)) (hclose : Reads close w () r) :
    Outcome (bracketed depth body close) (o :: (u ++ w)) v r := by
  cases v with
  | some v => exact reads_bracketed hd hbody hclose
  | none =>
    rw [outcome_none, List.cons_append, List.append_assoc, ← List.singleton_append]
    unfold bracketed
    simp only [if_neg (show ¬ depth ≤ 1 by omega)]
    refine Reads.failsOn_bind (reads_eat o _) ?_
    -- the body's fault is caught, the closing step is run, and the fault is thrown again
    exact FailsOn.attempt_bind hbody fun e _ => failsOn_attempt_bind fun _ t => failsOn_fix_throw e t

/-- A sequence: its opening bracket, its items joined by commas, its closing bracket. -/
theorem outcome_seqOf {α : Type} {expected : String} {item : Nat → Reading α} {depth : Nat}
    (hd : 1 < depth) {ps : List (List Char × Option α)} (hps : ItemsRead (item (depth - 1)) ps)
    (r : List Char) :
    Outcome (seqOf expected item depth) ('[' :: ([','].intercalate (ps.map Prod.fst) ++ [']']))
      (ps.mapM Prod.snd) r := by
  unfold seqOf bracketOr
  refine Outcome.attempt_bind ?_ (fun _ => rfl) (fun e t => failsOn_fix_throw e t)
  refine (reads_blanks (noLeadingBlank_cons (by decide) _)).continues_bind.outcome (u := []) ?_
  simp only [List.head?_cons, beq_self_eq_true, if_true]
  exact outcome_bracketed hd (outcome_arrayItems hps r) (reads_endArray r)

/-! ## Objects -/

theorem reads_memberStart_close (first : Bool) (r : List Char) :
    Reads (memberStart first) [] false ('}' :: r) := by
  unfold memberStart
  exact Reads.bind (u := []) (reads_blanks (noLeadingBlank_cons (by decide) r)) (Reads.of_pure _ _)

theorem reads_memberStart_first (k : String) (t : List Char) :
    Reads (memberStart true) [] true ((quote k).toList ++ t) := by
  rw [quote_toList, List.cons_append]
  unfold memberStart
  exact Reads.bind (u := []) (w := []) (reads_blanks (noLeadingBlank_cons (by decide) _))
    (Reads.bind (u := []) (Reads.of_pure _ _) (Reads.of_pure _ _))

theorem reads_memberStart_next (k : String) (t : List Char) :
    Reads (memberStart false) [','] true ((quote k).toList ++ t) := by
  rw [quote_toList, List.cons_append]
  unfold memberStart
  refine Reads.bind (u := []) (reads_blanks (noLeadingBlank_cons (by decide) _)) ?_
  simp only [Bool.false_eq_true, if_false]
  refine Reads.bind (u := [',']) (reads_eat ',' _) ?_
  exact Reads.bind (u := []) (w := []) (reads_blanks (noLeadingBlank_cons (by decide) _))
    (Reads.of_pure _ _)

/-- The text of an object member: its quoted key, a colon and the value's text. -/
def memberText {β : Type} (p : String × List Char × β) : List Char :=
  (quote p.1).toList ++ ':' :: p.2.1

/-- The compact text of an object's body: the members' texts joined by commas. -/
theorem compactMembers_toList (ms : List (String × Json)) :
    (compactMembers ms).toList =
      [','].intercalate (ms.map fun m => (quote m.1).toList ++ ':' :: (compact m.2).toList) := by
  induction ms with
  | nil => simp [compactMembers]
  | cons m ms ih =>
    rw [compactMembers_cons, List.map_cons, intercalate_comma_cons]
    cases ms with
    | nil => simp
    | cons m' ms' => simp [ih, intercalate_comma_cons]

/-- Object members as keys, value texts and what reading each value comes to with `member`
of the key, before anything that may follow a value. -/
def MembersRead {α : Type} (member : String → Reading α) (ps : List (String × List Char × Option α)) :
    Prop :=
  ∀ p ∈ ps, ∀ r, Closes r → Outcome (member p.1) p.2.1 p.2.2 r

theorem MembersRead.tail {α : Type} {member : String → Reading α} {p : String × List Char × Option α}
    {ps : List (String × List Char × Option α)} (h : MembersRead member (p :: ps)) :
    MembersRead member ps :=
  fun q hq => h q (List.mem_cons_of_mem p hq)

theorem closes_member_commas {β : Type} (ps : List (String × List Char × β)) (r : List Char) :
    Closes (ps.flatMap (fun p => ',' :: memberText p) ++ '}' :: r) := by
  cases ps <;> simp [Closes]

/-- One member after the comma or brace before it: the key, the colon, then the value. -/
theorem outcome_member {α β : Type} {member : String → Reading α} {f : α → Reading β}
    {p : String × List Char × Option α} {w r : List Char} {g : α → Option β}
    (hval : Outcome (member p.1) p.2.1 p.2.2 (w ++ r)) (hf : ∀ a, Outcome (f a) w (g a) r) :
    Outcome (key >>= fun k => colon >>= fun _ => member k >>= f) (memberText p ++ w)
      (p.2.2.bind g) r := by
  have htext : memberText p ++ w = (quote p.1).toList ++ ([':'] ++ (p.2.1 ++ w)) := by
    simp [memberText]
  rw [htext]
  refine Reads.outcome_bind (by rw [List.append_assoc]; exact reads_key p.1 _) ?_
  refine Reads.outcome_bind (by rw [List.append_assoc]; exact reads_colon _) ?_
  exact Outcome.bind hval hf

/-- Members after the first, each after its comma, then the closing brace. -/
theorem outcome_membersFrom_next {α : Type} {member : String → Reading α}
    {ps : List (String × List Char × Option α)} (hps : MembersRead member ps) :
    ∀ (out : List α) (fuel : Nat), ps.length < fuel → ∀ r,
      Outcome (membersFrom member fuel false out) (ps.flatMap fun p => ',' :: memberText p)
        ((ps.mapM fun (p : String × List Char × Option α) => p.2.2).map (out.reverse ++ ·))
        ('}' :: r) := by
  induction ps with
  | nil =>
    intro out fuel hf r
    obtain ⟨fuel, rfl⟩ : ∃ k, fuel = k + 1 := ⟨fuel - 1, by simp at hf; omega⟩
    unfold membersFrom
    refine Reads.bind (u := []) (reads_memberStart_close false r) ?_
    simp only [Bool.false_eq_true, if_false]
    simpa using Reads.of_pure out.reverse ('}' :: r)
  | cons p ps ih =>
    intro out fuel hf r
    obtain ⟨fuel, rfl⟩ : ∃ k, fuel = k + 1 := ⟨fuel - 1, by simp at hf; omega⟩
    have hrest a := ih hps.tail (a :: out) fuel (by simp at hf; omega) r
    have hval := hps p (by simp) _ (closes_member_commas ps r)
    unfold membersFrom
    rw [List.flatMap_cons, mapM_cons_map, List.cons_append, ← List.singleton_append (x := ',')]
    refine Reads.outcome_bind
      (by rw [memberText, List.append_assoc, List.append_assoc]; exact reads_memberStart_next p.1 _) ?_
    simp only [if_true]
    exact outcome_member hval hrest

/-- An object's body from its first member: the members joined by commas, up to the closing
brace, given more steps than members. -/
theorem outcome_membersFrom_first {α : Type} {member : String → Reading α}
    {ps : List (String × List Char × Option α)} (hps : MembersRead member ps) (fuel : Nat)
    (hf : ps.length < fuel) (r : List Char) :
    Outcome (membersFrom member fuel true []) ([','].intercalate (ps.map memberText))
      (ps.mapM fun (p : String × List Char × Option α) => p.2.2) ('}' :: r) := by
  obtain ⟨fuel, rfl⟩ : ∃ k, fuel = k + 1 := ⟨fuel - 1, by omega⟩
  cases ps with
  | nil =>
    unfold membersFrom
    refine Reads.bind (u := []) (reads_memberStart_close true r) ?_
    exact Reads.of_pure _ _
  | cons p ps =>
    have hrest a := outcome_membersFrom_next hps.tail [a] fuel (by simp at hf; omega) r
    have hval := hps p (by simp) _ (closes_member_commas ps r)
    have hout := mapM_cons_map (fun (p : String × List Char × Option α) => p.2.2) p ps []
    simp only [List.reverse_nil, List.nil_append, List.reverse_singleton, List.singleton_append,
      Option.map_id'] at hout
    rw [List.map_cons, intercalate_comma_cons, List.flatMap_map, hout,
      ← List.nil_append (memberText p ++ _)]
    unfold membersFrom
    refine Reads.outcome_bind
      (by rw [memberText, List.append_assoc, List.append_assoc]
          exact reads_memberStart_first p.1 _) ?_
    simp only [if_true]
    exact outcome_member hval (by simpa using hrest)

theorem memberText_ne_nil {β : Type} (p : String × List Char × β) : memberText p ≠ [] := by
  simp [memberText, quote_toList]

/-- The body of an object: the members joined by commas, up to the closing brace. -/
theorem outcome_members {α : Type} {member : String → Reading α}
    {ps : List (String × List Char × Option α)} (hps : MembersRead member ps) (r : List Char) :
    Outcome (members member) ([','].intercalate (ps.map memberText))
      (ps.mapM fun (p : String × List Char × Option α) => p.2.2) ('}' :: r) := by
  have hlen := @length_le_intercalate_comma (ps.map memberText)
    (fun t ht => by
      obtain ⟨p, -, rfl⟩ := List.mem_map.1 ht
      exact memberText_ne_nil p)
  unfold members
  refine Reads.outcome_bind (u := []) (reads_remaining _) ?_
  refine outcome_membersFrom_first hps _ ?_ r
  simp only [List.length_map, List.length_append, List.intercalate] at hlen ⊢
  omega

/-! ## Maps with sorted keys -/

/-- A key above every key of a map goes last. -/
theorem insertPair_of_lt {β : Type} {k : String} {v : β} :
    ∀ {ms : List (String × β)}, (∀ m ∈ ms, m.1 < k) → mapOf.insertPair k v ms = ms ++ [(k, v)]
  | [], _ => rfl
  | (k', v') :: rest, h => by
    have hlt : k' < k := h (k', v') (by simp)
    have hne : (k == k') = false := beq_eq_false_iff_ne.2 (ne_of_gt hlt)
    have hrest := insertPair_of_lt (v := v) fun m hm => h m (List.mem_cons_of_mem _ hm)
    simp only [mapOf.insertPair, hne, Bool.false_eq_true, if_false, if_neg (lt_asymm hlt), hrest,
      List.cons_append]

/-- Members with increasing keys are kept as they come. -/
theorem foldl_insertPair {β : Type} :
    ∀ {ms acc : List (String × β)}, (ms.map Prod.fst).Pairwise (· < ·) →
      (∀ a ∈ acc, ∀ b ∈ ms, a.1 < b.1) →
      ms.foldl (fun acc p => mapOf.insertPair p.1 p.2 acc) acc = acc ++ ms
  | [], acc, _, _ => by simp
  | m :: ms, acc, hs, hacc => by
    rw [List.map_cons, List.pairwise_cons] at hs
    have hm : ∀ b ∈ ms, m.1 < b.1 := fun b hb => hs.1 b.1 (List.mem_map_of_mem hb)
    rw [List.foldl_cons, insertPair_of_lt (fun a ha => hacc a ha m (by simp)),
      foldl_insertPair hs.2]
    · simp
    · intro a ha b hb
      rcases List.mem_append.1 ha with ha | ha
      · exact hacc a ha b (List.mem_cons_of_mem _ hb)
      · rw [List.mem_singleton.1 ha]
        exact hm b hb

/-- Values read under their keys keep the keys in order. -/
theorem mapM_keys {β : Type} :
    ∀ {ps : List (String × List Char × Option β)} {ms : List (String × β)},
      (ps.mapM fun (p : String × List Char × Option β) => p.2.2.map (p.1, ·)) = some ms →
      ms.map Prod.fst = ps.map Prod.fst
  | [], ms, h => by
    simp only [List.mapM_nil] at h
    cases h
    rfl
  | p :: ps, ms, h => by
    rcases p with ⟨k, t, _ | v⟩
    · simp [List.mapM_cons] at h
    · cases hrest : ps.mapM fun (p : String × List Char × Option β) => p.2.2.map (p.1, ·) with
      | none => simp [List.mapM_cons, hrest] at h
      | some ms' =>
        simp only [List.mapM_cons, hrest, Option.map_some, Option.pure_def, Option.bind_eq_bind,
          Option.bind_some, Option.some.injEq] at h
        subst h
        simp [mapM_keys hrest]

/-- A map with increasing keys: its members in order, each value read with `value`. -/
theorem outcome_mapOf {β : Type} {expected : String} {value : Nat → Reading β} {depth : Nat}
    (hd : 1 < depth) {ps : List (String × List Char × Option β)}
    (hps : ∀ p ∈ ps, ∀ r, Closes r → Outcome (value (depth - 1)) p.2.1 p.2.2 r)
    (hsorted : (ps.map Prod.fst).Pairwise (· < ·)) (r : List Char) :
    Outcome (mapOf expected value depth) ('{' :: ([','].intercalate (ps.map memberText) ++ ['}']))
      (ps.mapM fun (p : String × List Char × Option β) => p.2.2.map (p.1, ·)) r := by
  -- each member is read as its key with the value read after it
  let qs := ps.map fun (p : String × List Char × Option β) => (p.1, p.2.1, p.2.2.map (p.1, ·))
  have hqs : MembersRead (fun k => value (depth - 1) >>= fun v => pure (k, v)) qs := by
    intro q hq r hr
    obtain ⟨p, hp, rfl⟩ := List.mem_map.1 hq
    exact Outcome.bind_pure _ (hps p hp r hr)
  have hmembers := outcome_members hqs r
  have htext : qs.map memberText = ps.map memberText := by
    simp [qs, memberText]
  have hout : (qs.mapM fun (q : String × List Char × Option (String × β)) => q.2.2) =
      ps.mapM fun (p : String × List Char × Option β) => p.2.2.map (p.1, ·) := by
    simp [qs, List.mapM_map]
    rfl
  rw [htext, hout] at hmembers
  -- the keys come in increasing order, so the map keeps the members as they are
  have hbody := Outcome.bind_pure (fun ms => ms.foldl (fun acc p => mapOf.insertPair p.1 p.2 acc) [])
    hmembers
  have hkeep : (ps.mapM fun (p : String × List Char × Option β) => p.2.2.map (p.1, ·)).map
      (fun ms => ms.foldl (fun acc p => mapOf.insertPair p.1 p.2 acc) []) =
      ps.mapM fun (p : String × List Char × Option β) => p.2.2.map (p.1, ·) := by
    cases h : ps.mapM fun (p : String × List Char × Option β) => p.2.2.map (p.1, ·) with
    | none => rfl
    | some ms =>
      rw [Option.map_some, foldl_insertPair (by rw [mapM_keys h]; exact hsorted) (by simp),
        List.nil_append]
  rw [hkeep] at hbody
  unfold mapOf bracketOr
  refine Outcome.attempt_bind ?_ (fun _ => rfl) (fun e t => failsOn_fix_throw e t)
  refine (reads_blanks (noLeadingBlank_cons (by decide) _)).continues_bind.outcome (u := []) ?_
  simp only [List.head?_cons, beq_self_eq_true, if_true]
  exact outcome_bracketed hd hbody (reads_endObject r)

/-! ## Compact texts of arrays and objects read back -/

theorem compact_array_toList (xs : List Json) :
    (compact (.array xs)).toList =
      '[' :: ([','].intercalate (xs.map fun x => (compact x).toList) ++ [']']) := by
  rw [compact, String.toList_append, String.toList_append, compactItems_toList]
  rfl

theorem compact_object_toList (ms : List (String × Json)) :
    (compact (.object ms)).toList =
      '{' :: ([','].intercalate (ms.map fun m => (quote m.1).toList ++ ':' :: (compact m.2).toList) ++
        ['}']) := by
  rw [compact, String.toList_append, String.toList_append, compactMembers_toList]
  rfl

/-- The compact text of a sequence of values, each read by `item` as `out` says, comes to
the outcomes of the items in order. -/
theorem outcome_seqOf_compact {γ α : Type} {expected : String} {item : Nat → Reading α}
    {depth : Nat} (hd : 1 < depth) (enc : γ → Json) (out : γ → Option α) {xs : List γ}
    (h : ∀ x ∈ xs, ∀ r, Closes r → Outcome (item (depth - 1)) (compact (enc x)).toList (out x) r)
    (r : List Char) :
    Outcome (seqOf expected item depth) (compact (.array (xs.map enc))).toList (xs.mapM out) r := by
  have hps : ItemsRead (item (depth - 1)) (xs.map fun x => ((compact (enc x)).toList, out x)) := by
    intro p hp
    obtain ⟨x, hx, rfl⟩ := List.mem_map.1 hp
    exact ⟨opensValue_compact _, h x hx⟩
  have hseq : Outcome (seqOf expected item depth) _ _ r := outcome_seqOf hd hps r
  rw [compact_array_toList]
  simpa [List.mapM_map, Function.comp_def] using hseq

/-- The compact text of a map with increasing keys, each value read by `value` as `out` says,
comes to the members with their outcomes in order. -/
theorem outcome_mapOf_compact {γ β : Type} {expected : String} {value : Nat → Reading β}
    {depth : Nat} (hd : 1 < depth) (enc : γ → Json) (out : γ → Option β)
    {ms : List (String × γ)} (hsorted : (ms.map Prod.fst).Pairwise (· < ·))
    (h : ∀ m ∈ ms, ∀ r, Closes r → Outcome (value (depth - 1)) (compact (enc m.2)).toList (out m.2) r)
    (r : List Char) :
    Outcome (mapOf expected value depth)
      (compact (.object (ms.map fun (m : String × γ) => (m.1, enc m.2)))).toList
      (ms.mapM fun (m : String × γ) => (out m.2).map (m.1, ·)) r := by
  have hps : ∀ p ∈ ms.map fun (m : String × γ) => (m.1, (compact (enc m.2)).toList, out m.2),
      ∀ r, Closes r → Outcome (value (depth - 1)) p.2.1 p.2.2 r := by
    intro p hp r hr
    obtain ⟨m, hm, rfl⟩ := List.mem_map.1 hp
    exact h m hm r hr
  have hmap : Outcome (mapOf expected value depth) _ _ r :=
    outcome_mapOf hd hps (by simpa [Function.comp_def] using hsorted) r
  rw [compact_object_toList]
  simpa [List.mapM_map, Function.comp_def, memberText] using hmap

/-! ## Scalars of a known type -/

/-- A number whose text starts with a digit is read as a number without a sign. -/
theorem outcome_numberOf_digit (expected : String) {c : Char} (hc : c.isDigit = true)
    {rest r : List Char} {o : Option JsonNumber} (h : Outcome (readNumber true) (c :: rest) o r) :
    Outcome (numberOf expected) (c :: rest) o r := by
  have hb : ¬ IsBlankChar c := by
    have := Char.isDigit_iff_toNat.1 hc
    unfold IsBlankChar
    rintro (rfl | rfl | rfl | rfl) <;> simp at this
  unfold numberOf
  refine Outcome.attempt_bind ?_ (fun _ => rfl) (fun e t => failsOn_fix_throw e t)
  refine (reads_blanks (noLeadingBlank_cons hb _)).continues_bind.outcome (u := []) ?_
  simp only [List.head?_cons]
  split
  case h_3 d _ heq =>
    obtain rfl : c = d := Option.some.inj heq
    simp only [isDigit_eq, hc, if_true]
    exact h
  -- the other branches are for no character and for the minus sign
  all_goals
    rename_i heq
    cases heq <;> simp at hc

/-- A number below `bound`, at most `2^64`, is read back from its digits. -/
theorem reads_unsignedBelow {bound n : Nat} (hn : n < bound) (hb : bound ≤ Nat.pow 2 64)
    (expected : String) {r : List Char} (hr : EndsNumber r) :
    Reads (unsignedBelow bound expected) (Nat.toDigits 10 n) n r := by
  have hmax : n ≤ maxUnsigned := by unfold maxUnsigned; omega
  obtain ⟨c, rest, hcr⟩ := List.exists_cons_of_ne_nil (Nat.toDigits_ne_nil (n := n) (b := 10))
  have hc := Binary64.isDigits_toDigits n c (by simp [hcr])
  have hnum := reads_readNumber_unsigned hmax hr
  rw [hcr] at hnum ⊢
  unfold unsignedBelow
  rw [← List.append_nil (c :: rest)]
  refine Reads.bind (outcome_numberOf_digit expected hc (o := some _) hnum) ?_
  simp only [if_pos hn]
  exact Reads.of_pure n r

theorem reads_boolOf (b : Bool) (r : List Char) : Reads boolOf (compact (.bool b)).toList b r := by
  unfold boolOf
  refine Reads.bind_eq (w := []) (Reads.attempt ?_) (Reads.of_pure _ _) (List.append_nil _).symm
  cases b
  · refine Reads.bind_eq (u := []) (reads_blanks (noLeadingBlank_cons (by decide) _)) ?_ rfl
    exact Reads.bind_eq (u := ['f']) (reads_eat 'f' _)
      (Reads.bind_eq (reads_ident _ _) (Reads.of_pure _ _) rfl) (by decide)
  · refine Reads.bind_eq (u := []) (reads_blanks (noLeadingBlank_cons (by decide) _)) ?_ rfl
    exact Reads.bind_eq (u := ['t']) (reads_eat 't' _)
      (Reads.bind_eq (reads_ident _ _) (Reads.of_pure _ _) rfl) (by decide)

theorem reads_optionOf_none {α : Type} (inner : Reading α) (r : List Char) :
    Reads (optionOf inner) (compact .null).toList none r := by
  unfold optionOf
  refine Reads.bind_eq (u := []) (reads_blanks (noLeadingBlank_cons (by decide) _)) ?_ rfl
  exact Reads.bind_eq (u := ['n']) (reads_eat 'n' _)
    (Reads.bind_eq (reads_ident _ _) (Reads.of_pure _ _) rfl) (by decide)

/-- A string, where a value or `null` may stand, is read as that value. -/
theorem reads_optionOf_string {α : Type} {inner : Reading α} {s : String} {v : α} {r : List Char}
    (h : Reads inner (quote s).toList v r) : Reads (optionOf inner) (quote s).toList (some v) r := by
  unfold optionOf
  have h' := Reads.map some h
  rw [quote_toList] at h' ⊢
  exact Reads.bind (u := []) (reads_blanks (noLeadingBlank_cons (by decide) _)) h'

/-! ## Whole texts -/

/-- A reader that comes to `o` on a whole text, with nothing after it, decodes the text to
`o`. -/
theorem readAll_toOption {α : Type} {reader : Reading α} {text : String} {o : Option α}
    (h : Outcome reader text.toList o []) : (readAll reader text).toOption = o := by
  unfold readAll
  dsimp only
  cases o with
  | some v =>
    obtain ⟨l, c, hv⟩ := h 1 0
    obtain ⟨l', c', hb⟩ := reads_blanks noLeadingBlank_nil l c
    rw [List.append_nil] at hv
    rw [List.nil_append] at hb
    split
    next v' s' heq =>
      simp only [bind, EStateM.bind, hv, hb, List.head?_nil] at heq
      cases heq
      rfl
    next e s' heq =>
      simp only [bind, EStateM.bind, hv, hb, List.head?_nil] at heq
      cases heq
  | none =>
    obtain ⟨e, s, he⟩ := h 1 0
    rw [List.append_nil] at he
    split
    next v' s' heq =>
      simp only [bind, EStateM.bind, he] at heq
      cases heq
    next => rfl

end Json
end QueryShield