import Mathlib
import QueryShield.Proofs.Json.CompactText
import QueryShield.Proofs.Cache.KeyAgreement

/-!
# The canonical text is a canonical form

Two JSON values are the same value (`Json.Same`) when they agree with objects read as maps
from keys to values at every depth, arrays read in order and numbers compared as held.  The
canonical text sorts the members of every object by key and then writes the compact text, so
it forgets member order and nothing else: for well-formed values, equal canonical texts are
exactly the same value (`canonical_eq_iff_same`).

The argument has two halves.  Sorting keys picks one member order for each value, the same for
two values that are the same (`sortKeys_eq_of_same`), and keeps the value (`same_sortKeys`);
and the compact text of a well-formed value determines it (`compact_injective`).

For the named parameters of a cache key it follows that the digest does not depend on the
order the parameters were added in (`KeyFields.fields_foldl_put_perm`) nor on the order of the
members of a set parameter (`KeyFields.digest_putSet_perm`), while parameter sets that are not
the same value have different canonical texts.
-/

namespace QueryShield
namespace Json

/-! ## The same value -/

/-- Two values are the same JSON value: objects as maps from keys to values, arrays in order,
numbers as held, at every depth. -/
inductive Same : Json → Json → Prop
  | null : Same .null .null
  | bool (b : Bool) : Same (.bool b) (.bool b)
  | number (n : JsonNumber) : Same (.number n) (.number n)
  | string (s : String) : Same (.string s) (.string s)
  | array {xs ys : List Json} (length : xs.length = ys.length)
      (items : ∀ i (hx : i < xs.length) (hy : i < ys.length), Same xs[i] ys[i]) :
      Same (.array xs) (.array ys)
  | object {ms ns : List (String × Json)} (keys : ∀ k, k ∈ ms.map Prod.fst ↔ k ∈ ns.map Prod.fst)
      (values : ∀ k v w, ms.lookup k = some v → ns.lookup k = some w → Same v w) :
      Same (.object ms) (.object ns)

/-! ## Members as maps -/

section Lookup

variable {l : List (String × Json)} {k : String} {v : Json}

theorem mem_of_lookup_eq_some (h : l.lookup k = some v) : (k, v) ∈ l := by
  induction l with
  | nil => simp at h
  | cons m l ih =>
    obtain ⟨k', v'⟩ := m
    by_cases hk : k = k'
    · subst hk
      simp only [List.lookup_cons, beq_self_eq_true, Option.some.injEq] at h
      simp [h]
    · have hb : (k == k') = false := by simpa using hk
      simp only [List.lookup_cons, hb] at h
      exact List.mem_cons_of_mem _ (ih h)

theorem lookup_eq_some_of_mem (hnd : (l.map Prod.fst).Nodup) (h : (k, v) ∈ l) :
    l.lookup k = some v := by
  induction l with
  | nil => simp at h
  | cons m l ih =>
    obtain ⟨k', v'⟩ := m
    simp only [List.map_cons, List.nodup_cons, List.mem_map] at hnd
    rcases List.mem_cons.1 h with h | h
    · cases h
      simp
    · have hk : k ≠ k' := fun hk => hnd.1 ⟨(k, v), h, hk⟩
      have hb : (k == k') = false := by simpa using hk
      simp only [List.lookup_cons, hb]
      exact ih hnd.2 h

theorem exists_lookup_of_mem_keys (h : k ∈ l.map Prod.fst) : ∃ v, l.lookup k = some v := by
  induction l with
  | nil => simp at h
  | cons m l ih =>
    obtain ⟨k', v'⟩ := m
    by_cases hk : k = k'
    · subst hk
      exact ⟨v', by simp⟩
    · have hb : (k == k') = false := by simpa using hk
      simp only [List.map_cons, List.mem_cons, hk, false_or] at h
      obtain ⟨v, hv⟩ := ih h
      exact ⟨v, by simp only [List.lookup_cons, hb]; exact hv⟩

theorem mem_keys_of_lookup (h : l.lookup k = some v) : k ∈ l.map Prod.fst :=
  List.mem_map.2 ⟨(k, v), mem_of_lookup_eq_some h, rfl⟩

end Lookup

theorem Same.symm {a b : Json} (h : Same a b) : Same b a := by
  induction h with
  | null => exact .null
  | bool b => exact .bool b
  | number n => exact .number n
  | string s => exact .string s
  | array hlen _ ih => exact .array hlen.symm fun i hy hx => ih i hx hy
  | object hkeys _ ih => exact .object (fun k => (hkeys k).symm) fun k v w hv hw => ih k w v hw hv

theorem Same.trans {a b c : Json} (h₁ : Same a b) (h₂ : Same b c) : Same a c := by
  induction h₁ generalizing c with
  | null => exact h₂
  | bool b => exact h₂
  | number n => exact h₂
  | string s => exact h₂
  | array hlen _ ih =>
    cases h₂ with
    | array hlen' items' =>
      exact .array (hlen.trans hlen') fun i hx hz => ih i hx (hlen ▸ hx) (items' i _ hz)
  | @object ms ns hkeys _ ih =>
    cases h₂ with
    | object hkeys' values' =>
      refine .object (fun k => (hkeys k).trans (hkeys' k)) fun k v u hv hu => ?_
      -- the middle value sits under the same key
      obtain ⟨w, hw⟩ := exists_lookup_of_mem_keys ((hkeys k).1 (mem_keys_of_lookup hv))
      exact ih k v w hv hw (values' k w u hw hu)

/-! ## Sorting keys -/

theorem sortKeysItems_eq (xs : List Json) : sortKeysItems xs = xs.map sortKeys := by
  induction xs with
  | nil => rfl
  | cons x xs ih => simp [sortKeysItems, ih]

/-- Members with their values' keys sorted. -/
def sortValues (m : String × Json) : String × Json := (m.1, sortKeys m.2)

theorem sortKeysMembers_eq (ms : List (String × Json)) :
    sortKeysMembers ms = ms.map sortValues := by
  induction ms with
  | nil => rfl
  | cons m ms ih => obtain ⟨k, v⟩ := m; simp [sortKeysMembers, sortValues, ih]

@[simp] theorem sortKeys_array (xs : List Json) : sortKeys (.array xs) = .array (xs.map sortKeys) := by
  simp [sortKeys, sortKeysItems_eq]

@[simp] theorem sortKeys_object (ms : List (String × Json)) :
    sortKeys (.object ms) = .object (orderMembers (ms.map sortValues)) := by
  simp [sortKeys, sortKeysMembers_eq]

theorem keys_map_sortValues (ms : List (String × Json)) :
    (ms.map sortValues).map Prod.fst = ms.map Prod.fst := by
  simp [Function.comp_def, sortValues]

theorem orderMembers_perm (ms : List (String × Json)) : (orderMembers ms).Perm ms :=
  List.mergeSort_perm _ _

theorem orderMembers_sorted (ms : List (String × Json)) :
    (orderMembers ms).Pairwise fun a b => a.1 ≤ b.1 := by
  have hle (a b : String × Json) : (!decide (b.1 < a.1)) = true ↔ a.1 ≤ b.1 := by
    rw [Bool.not_eq_true', decide_eq_false_iff_not, not_lt]
  have := @List.pairwise_mergeSort _ (fun a b : String × Json => !decide (b.1 < a.1))
    (fun a b c hab hbc => (hle a c).2 (((hle a b).1 hab).trans ((hle b c).1 hbc)))
    (fun a b => by
      rw [Bool.or_eq_true]
      rcases le_total a.1 b.1 with h | h
      · exact .inl ((hle a b).2 h)
      · exact .inr ((hle b a).2 h)) ms
  exact this.imp fun h => (hle _ _).1 h

/-- Members with distinct keys are put in one order, whatever order they come in. -/
theorem orderMembers_eq_of_perm {ms ns : List (String × Json)} (hnd : (ms.map Prod.fst).Nodup)
    (h : ms.Perm ns) : orderMembers ms = orderMembers ns := by
  refine List.Perm.eq_of_pairwise ?_ (orderMembers_sorted ms) (orderMembers_sorted ns)
    (((orderMembers_perm ms).trans h).trans (orderMembers_perm ns).symm)
  intro a b ha hb hab hba
  have ha' : a ∈ ms := (orderMembers_perm ms).mem_iff.1 ha
  have hb' : b ∈ ms := h.mem_iff.2 ((orderMembers_perm ns).mem_iff.1 hb)
  exact List.inj_on_of_nodup_map hnd ha' hb' (le_antisymm hab hba)

/-- Sorting keys keeps a value well-formed. -/
theorem WellFormed.sortKeys {a : Json} (h : a.WellFormed) : (sortKeys a).WellFormed := by
  induction h with
  | null => exact .null
  | bool b => exact .bool b
  | number h => exact .number h
  | string s => exact .string s
  | array _ ih =>
    rw [sortKeys_array]
    refine .array fun y hy => ?_
    obtain ⟨x, hx, rfl⟩ := List.mem_map.1 hy
    exact ih x hx
  | @object ms hkeys _ ih =>
    rw [sortKeys_object]
    refine .object ?_ fun m hm => ?_
    · rw [((orderMembers_perm _).map Prod.fst).nodup_iff, keys_map_sortValues]
      exact hkeys
    · obtain ⟨m', hm', rfl⟩ := List.mem_map.1 ((orderMembers_perm _).mem_iff.1 hm)
      exact ih m' hm'

/-- A member of the sorted members is a member of the value with its keys sorted. -/
theorem mem_orderMembers_sortValues {ms : List (String × Json)} {k : String} {w : Json}
    (h : (k, w) ∈ orderMembers (ms.map sortValues)) : ∃ v, (k, v) ∈ ms ∧ w = sortKeys v := by
  obtain ⟨⟨k', v⟩, hm, he⟩ := List.mem_map.1 ((orderMembers_perm _).mem_iff.1 h)
  simp only [sortValues, Prod.mk.injEq] at he
  obtain ⟨rfl, rfl⟩ := he
  exact ⟨v, hm, rfl⟩

/-- Sorting keys keeps the value. -/
theorem same_sortKeys {a : Json} (h : a.WellFormed) : Same a (sortKeys a) := by
  induction h with
  | null => exact .null
  | bool b => exact .bool b
  | number h => exact .number _
  | string s => exact .string s
  | @array xs _ ih =>
    rw [sortKeys_array]
    exact .array (List.length_map _).symm fun i hx _ => by
      rw [List.getElem_map]
      exact ih _ (List.getElem_mem hx)
  | @object ms hkeys _ ih =>
    rw [sortKeys_object]
    refine .object (fun k => ?_) fun k v w hv hw => ?_
    · rw [((orderMembers_perm _).map Prod.fst).mem_iff, keys_map_sortValues]
    · obtain ⟨v', hv', rfl⟩ := mem_orderMembers_sortValues (mem_of_lookup_eq_some hw)
      -- the key names one member, so the value under it is the one that was sorted
      have hvv : v' = v := Option.some.inj ((lookup_eq_some_of_mem hkeys hv').symm.trans hv)
      subst hvv
      exact ih (k, v') hv'

/-- Members that are the same map, with keys sorted in their values, are one list up to order. -/
theorem map_sortValues_perm {ms ns : List (String × Json)} (hms : (ms.map Prod.fst).Nodup)
    (hns : (ns.map Prod.fst).Nodup) (hkeys : ∀ k, k ∈ ms.map Prod.fst ↔ k ∈ ns.map Prod.fst)
    (hval : ∀ k v w, ms.lookup k = some v → ns.lookup k = some w → sortKeys v = sortKeys w) :
    (ms.map sortValues).Perm (ns.map sortValues) := by
  have hnd (l : List (String × Json)) (h : (l.map Prod.fst).Nodup) : (l.map sortValues).Nodup :=
    List.Nodup.of_map Prod.fst (by rwa [keys_map_sortValues])
  rw [List.perm_ext_iff_of_nodup (hnd ms hms) (hnd ns hns)]
  rintro ⟨k, w⟩
  simp only [List.mem_map, sortValues, Prod.mk.injEq]
  constructor
  · rintro ⟨⟨k', v⟩, hv, rfl, rfl⟩
    obtain ⟨w, hw⟩ := exists_lookup_of_mem_keys ((hkeys k').1 (List.mem_map.2 ⟨_, hv, rfl⟩))
    exact ⟨(k', w), mem_of_lookup_eq_some hw, rfl,
      (hval k' v w (lookup_eq_some_of_mem hms hv) hw).symm⟩
  · rintro ⟨⟨k', w⟩, hw, rfl, rfl⟩
    obtain ⟨v, hv⟩ := exists_lookup_of_mem_keys ((hkeys k').2 (List.mem_map.2 ⟨_, hw, rfl⟩))
    exact ⟨(k', v), mem_of_lookup_eq_some hv, rfl, hval k' v w hv (lookup_eq_some_of_mem hns hw)⟩

/-- The same value gets one member order. -/
theorem sortKeys_eq_of_same {a b : Json} (h : Same a b) (ha : a.WellFormed) (hb : b.WellFormed) :
    sortKeys a = sortKeys b := by
  induction h with
  | null => rfl
  | bool b => rfl
  | number n => rfl
  | string s => rfl
  | @array xs ys hlen _ ih =>
    cases ha with | array hxs =>
    cases hb with | array hys =>
    rw [sortKeys_array, sortKeys_array]
    congr 1
    refine List.ext_getElem (by simp [hlen]) fun i h₁ h₂ => ?_
    rw [List.getElem_map, List.getElem_map]
    exact ih i _ _ (hxs _ (List.getElem_mem _)) (hys _ (List.getElem_mem _))
  | @object ms ns hkeys _ ih =>
    cases ha with | object hms hvms =>
    cases hb with | object hns hvns =>
    rw [sortKeys_object, sortKeys_object]
    congr 1
    refine orderMembers_eq_of_perm (by rwa [keys_map_sortValues]) ?_
    refine map_sortValues_perm hms hns hkeys fun k v w hv hw => ?_
    exact ih k v w hv hw (hvms _ (mem_of_lookup_eq_some hv)) (hvns _ (mem_of_lookup_eq_some hw))

/-- For well-formed values, one canonical text is exactly one value, up to member order. -/
theorem canonical_eq_iff_same {a b : Json} (ha : a.WellFormed) (hb : b.WellFormed) :
    canonical a = canonical b ↔ Same a b := by
  constructor
  · intro h
    have hsort : sortKeys a = sortKeys b := compact_injective ha.sortKeys hb.sortKeys h
    have hb' : Same (sortKeys b) b := (same_sortKeys hb).symm
    exact (same_sortKeys ha).trans (hsort ▸ hb')
  · intro h
    rw [canonical, canonical, sortKeys_eq_of_same h ha hb]

/-! ## Texts built from canonical texts -/

theorem compactItems_cons_eq (x : Json) (xs : List Json) :
    compactItems (x :: xs) = compact x ++ (if xs = [] then "" else "," ++ compactItems xs) := by
  cases xs <;> simp [compactItems, String.append_assoc]

theorem compactMembers_cons_eq (k : String) (v : Json) (ms : List (String × Json)) :
    compactMembers ((k, v) :: ms) =
      quote k ++ ":" ++ compact v ++ (if ms = [] then "" else "," ++ compactMembers ms) := by
  cases ms <;> simp [compactMembers, String.append_assoc]

theorem compactItems_congr {xs ys : List Json} (h : xs.map compact = ys.map compact) :
    compactItems xs = compactItems ys := by
  induction xs generalizing ys with
  | nil => cases ys <;> simp_all
  | cons x xs ih =>
    cases ys with
    | nil => simp at h
    | cons y ys =>
      simp only [List.map_cons, List.cons.injEq] at h
      have hnil : (xs = []) = (ys = []) := by
        rw [← List.map_eq_nil_iff (f := compact), h.2, List.map_eq_nil_iff]
      simp only [compactItems_cons_eq, h.1, hnil, ih h.2]

theorem compactMembers_congr {ms ns : List (String × Json)}
    (h : ms.map (fun m => (m.1, compact m.2)) = ns.map fun m => (m.1, compact m.2)) :
    compactMembers ms = compactMembers ns := by
  induction ms generalizing ns with
  | nil => cases ns <;> simp_all
  | cons m ms ih =>
    cases ns with
    | nil => simp at h
    | cons n ns =>
      obtain ⟨k, v⟩ := m
      obtain ⟨k', v'⟩ := n
      simp only [List.map_cons, List.cons.injEq, Prod.mk.injEq] at h
      obtain ⟨⟨rfl, hv⟩, h⟩ := h
      have hnil : (ms = []) = (ns = []) := by
        rw [← List.map_eq_nil_iff (f := fun m : String × Json => (m.1, compact m.2)), h,
          List.map_eq_nil_iff]
      simp only [compactMembers_cons_eq, hv, hnil, ih h]

/-- An array's canonical text depends only on its items' canonical texts. -/
theorem canonical_array_congr {xs ys : List Json} (h : xs.map canonical = ys.map canonical) :
    canonical (.array xs) = canonical (.array ys) := by
  have hc : (xs.map sortKeys).map compact = (ys.map sortKeys).map compact := by
    rw [List.map_map, List.map_map]
    exact h
  simp only [canonical, sortKeys_array, compact, compactItems_congr hc]

/-- Members named by key, with the canonical texts of their values. -/
def canonicalMember (m : String × Json) : String × String := (m.1, canonical m.2)

/-- An object's canonical text depends only on its members' keys and canonical texts. -/
theorem canonical_object_congr {ms ns : List (String × Json)}
    (h : ms.map canonicalMember = ns.map canonicalMember) :
    canonical (.object ms) = canonical (.object ns) := by
  -- sorting compares keys only, so it commutes with writing the values
  have hsort (l : List (String × Json)) :
      (orderMembers (l.map sortValues)).map (fun m => (m.1, compact m.2)) =
        (l.map canonicalMember).mergeSort fun a b => !decide (b.1 < a.1) := by
    rw [orderMembers, List.map_mergeSort (s := fun a b : String × String => !decide (b.1 < a.1))
      (fun _ _ _ _ => rfl), List.map_map]
    rfl
  have hm := compactMembers_congr ((hsort ms).trans (h ▸ (hsort ns).symm))
  simp only [canonical, sortKeys_object, compact, hm]

end Json

namespace KeyFields

/-! ## The digest of the parameters -/

/-- Two insertions under different names commute. -/
theorem insertSorted_comm {a b : String} (hab : a ≠ b) (x y : Json) (l : List (String × Json)) :
    Json.insertSorted a x (Json.insertSorted b y l) = Json.insertSorted b y (Json.insertSorted a x l) := by
  induction l with
  | nil =>
    rcases lt_or_gt_of_ne hab with h | h
    · simp [Json.insertSorted, hab, Ne.symm hab, h, not_lt.2 h.le]
    · simp [Json.insertSorted, hab, Ne.symm hab, h, not_lt.2 h.le]
  | cons m l ih =>
    obtain ⟨c, z⟩ := m
    -- the places of the two names against the head's name decide every branch
    rcases lt_trichotomy a c with ha | rfl | ha
    · rcases lt_trichotomy b c with hb | rfl | hb
      · rcases lt_or_gt_of_ne hab with h | h <;>
          simp [Json.insertSorted, *, lt_asymm, ne_of_gt, Ne.symm]
      · simp [Json.insertSorted, *, lt_asymm, ne_of_gt, Ne.symm]
      · simp [Json.insertSorted, *, ha.trans hb, lt_asymm, ne_of_gt, Ne.symm]
    · rcases lt_or_gt_of_ne hab with h | h <;>
        simp [Json.insertSorted, *, lt_asymm, ne_of_gt, Ne.symm]
    · rcases lt_trichotomy b c with hb | rfl | hb
      · simp [Json.insertSorted, *, hb.trans ha, lt_asymm, ne_of_gt, Ne.symm]
      · simp [Json.insertSorted, *, lt_asymm, Ne.symm]
      · simp [Json.insertSorted, *, lt_asymm, ne_of_gt, Ne.symm]

theorem put_comm (k : KeyFields) {a b : String} (hab : a ≠ b) (x y : Json) :
    (k.put a x).put b y = (k.put b y).put a x := by
  simp only [put, insertSorted_comm (Ne.symm hab)]

/-- Parameters added one by one. -/
def putAll (k : KeyFields) (fs : List (String × Json)) : KeyFields :=
  fs.foldl (fun k f => k.put f.1 f.2) k

/-- Parameters under different names may be added in any order. -/
theorem putAll_perm (k : KeyFields) {fs gs : List (String × Json)} (hnd : (fs.map Prod.fst).Nodup)
    (h : fs.Perm gs) : k.putAll fs = k.putAll gs := by
  refine h.foldl_eq' (fun f hf g hg z => ?_) k
  by_cases hfg : f = g
  · rw [hfg]
  · exact put_comm z (fun he => hfg (List.inj_on_of_nodup_map hnd hf hg he)) _ _

theorem insertSorted_ne_nil (name : String) (v : Json) (l : List (String × Json)) :
    Json.insertSorted name v l ≠ [] := by
  cases l with
  | nil => simp [Json.insertSorted]
  | cons m l => obtain ⟨k, w⟩ := m; simp only [Json.insertSorted]; split_ifs <;> simp

/-- Insertion compares names only, so it commutes with writing the values. -/
theorem map_canonicalMember_insertSorted (name : String) {v w : Json}
    (h : Json.canonical v = Json.canonical w) (l : List (String × Json)) :
    (Json.insertSorted name v l).map Json.canonicalMember =
      (Json.insertSorted name w l).map Json.canonicalMember := by
  induction l with
  | nil => simp [Json.insertSorted, Json.canonicalMember, h]
  | cons m l ih =>
    obtain ⟨k, u⟩ := m
    simp only [Json.insertSorted]
    split_ifs <;> simp [Json.canonicalMember, h, ih]

/-- Members sorted by canonical text: permuted members give the same canonical texts. -/
theorem map_canonical_sorted_perm {ms ns : List Json} (h : ms.Perm ns) :
    (ms.mergeSort fun a b => !decide (Json.canonical b < Json.canonical a)).map Json.canonical =
      (ns.mergeSort fun a b => !decide (Json.canonical b < Json.canonical a)).map Json.canonical := by
  have hle (a b : Json) :
      (!decide (Json.canonical b < Json.canonical a)) = true ↔ Json.canonical a ≤ Json.canonical b := by
    rw [Bool.not_eq_true', decide_eq_false_iff_not, not_lt]
  have hsorted (l : List Json) :
      ((l.mergeSort fun a b => !decide (Json.canonical b < Json.canonical a)).map
        Json.canonical).Pairwise (· ≤ ·) := by
    have := @List.pairwise_mergeSort _
      (fun a b : Json => !decide (Json.canonical b < Json.canonical a))
      (fun a b c hab hbc => (hle a c).2 (((hle a b).1 hab).trans ((hle b c).1 hbc)))
      (fun a b => by
        rw [Bool.or_eq_true]
        rcases le_total (Json.canonical a) (Json.canonical b) with h | h
        · exact .inl ((hle a b).2 h)
        · exact .inr ((hle b a).2 h)) l
    exact List.pairwise_map.2 (this.imp fun h => (hle _ _).1 h)
  refine List.Perm.eq_of_pairwise (fun a b _ _ hab hba => le_antisymm hab hba) (hsorted ms)
    (hsorted ns) ?_
  exact (((List.mergeSort_perm _ _).trans h).trans (List.mergeSort_perm _ _).symm).map _

/-- The digest of a set parameter does not depend on the order of its members. -/
theorem digest_putSet_perm (k : KeyFields) (name : String) {ms ns : List Json} (h : ms.Perm ns) :
    (k.putSet name ms).digest = (k.putSet name ns).digest := by
  have harray := Json.canonical_array_congr (map_canonical_sorted_perm h)
  rw [putSet, putSet, put, put, digest_eq_some (insertSorted_ne_nil _ _ _),
    digest_eq_some (insertSorted_ne_nil _ _ _), Json.fingerprint, Json.fingerprint,
    Json.canonical_object_congr (map_canonicalMember_insertSorted name harray _)]

end KeyFields

namespace Json

/-- The canonical text is a canonical form: for well-formed values, one text is one value up
to member order; so a digest does not depend on the order parameters are added in, nor on the
order of a set parameter's members, and parameter sets that are not the same value have
different canonical texts. -/
theorem canonical_eq_iff_same_digest_order_free (a b : Json) (ha : a.WellFormed)
    (hb : b.WellFormed) :
    (canonical a = canonical b ↔ Same a b) ∧
    (∀ (k : KeyFields) (fs gs : List (String × Json)), (fs.map Prod.fst).Nodup → fs.Perm gs →
      (k.putAll fs).digest = (k.putAll gs).digest) ∧
    (∀ (k : KeyFields) (name : String) (ms ns : List Json), ms.Perm ns →
      (k.putSet name ms).digest = (k.putSet name ns).digest) ∧
    (∀ k₁ k₂ : KeyFields, (Json.object k₁.fields).WellFormed → (Json.object k₂.fields).WellFormed →
      ¬Same (.object k₁.fields) (.object k₂.fields) →
      canonical (.object k₁.fields) ≠ canonical (.object k₂.fields)) :=
  ⟨canonical_eq_iff_same ha hb,
    fun k _ _ hnd h => by rw [KeyFields.putAll_perm k hnd h],
    fun k name _ _ h => KeyFields.digest_putSet_perm k name h,
    fun _ _ h₁ h₂ hne heq => hne ((canonical_eq_iff_same h₁ h₂).1 heq)⟩

/-- Two objects with their members in opposite orders. -/
theorem canonical_eq_iff_same_reordered :
    (Json.object [("b", .number (.unsigned 1)), ("a", .null)]).WellFormed ∧
    (Json.object [("a", .null), ("b", .number (.unsigned 1))]).WellFormed ∧
    ((canonical (.object [("b", .number (.unsigned 1)), ("a", .null)]) =
        canonical (.object [("a", .null), ("b", .number (.unsigned 1))]) ↔
      Same (.object [("b", .number (.unsigned 1)), ("a", .null)])
        (.object [("a", .null), ("b", .number (.unsigned 1))])) ∧
    (∀ (k : KeyFields) (fs gs : List (String × Json)), (fs.map Prod.fst).Nodup → fs.Perm gs →
      (k.putAll fs).digest = (k.putAll gs).digest) ∧
    (∀ (k : KeyFields) (name : String) (ms ns : List Json), ms.Perm ns →
      (k.putSet name ms).digest = (k.putSet name ns).digest) ∧
    (∀ k₁ k₂ : KeyFields, (Json.object k₁.fields).WellFormed → (Json.object k₂.fields).WellFormed →
      ¬Same (.object k₁.fields) (.object k₂.fields) →
      canonical (.object k₁.fields) ≠ canonical (.object k₂.fields))) := by
  have ha : (Json.object [("b", .number (.unsigned 1)), ("a", .null)]).WellFormed :=
    .object (by decide) (by simpa using ⟨.number trivial, .null⟩)
  have hb : (Json.object [("a", .null), ("b", .number (.unsigned 1))]).WellFormed :=
    .object (by decide) (by simpa using ⟨.null, .number trivial⟩)
  exact ⟨ha, hb, canonical_eq_iff_same_digest_order_free _ _ ha hb⟩

end Json
end QueryShield
