import Mathlib
import QueryShield.Proofs.Json.TypedReading

/-!
# Reading records back

`recordOf` reads a record written as an object: each member names a field, fields may come
in any order, and each is read with its own reader.  This module follows it through the text
the compact printer writes for a record whose members are its fields in order, each field
once: the reader finds each key at its own position in the field list (the names are
distinct), sees that the field was not read yet, reads the value, and when the brace closes
finds every field present.  The record comes to its values in field order
(`outcome_recordOf`), and the compact text of a record whose fields read their values back
whole is read back whole (`reads_recordOf_compact`).
-/

namespace QueryShield
namespace Json

/-- The fields of a record with the texts of their values and what reading each comes to,
before anything that may follow a value. -/
def FieldsRead (depth : Nat) (qs : List (Field × List Char × Option Json)) : Prop :=
  ∀ q ∈ qs, ∀ r, Closes r → Outcome (q.1.read (depth - 1)) q.2.1 q.2.2 r

/-- The key of a field that stands after fields of other names is found at its position. -/
theorem findIdx?_name {pre rest : List Field} {f : Field} (h : f.name ∉ pre.map Field.name) :
    (pre ++ f :: rest).findIdx? (fun x => x.name == f.name) = some pre.length := by
  have hnone : pre.findIdx? (fun x => x.name == f.name) = none := by
    refine List.findIdx?_eq_none_iff.2 fun x hx => beq_eq_false_iff_ne.2 fun heq => ?_
    exact h (heq ▸ List.mem_map_of_mem hx)
  simp [List.findIdx?_append, hnone, List.findIdx?_cons]

/-- The outcomes of the parts, the first one taken apart. -/
theorem mapM_cons_bind {γ α δ : Type} (f : γ → Option α) (g : List α → δ) (p : γ) (ps : List γ) :
    ((p :: ps).mapM f).map g = (f p).bind fun a => (ps.mapM f).map fun ws => g (a :: ws) := by
  cases hp : f p with
  | none => simp [List.mapM_cons, hp]
  | some a => cases h : ps.mapM f <;> simp [List.mapM_cons, hp, h]

/-- Once every field was read, the record is its values in field order. -/
theorem collectFields_some :
    ∀ {fields : List Field} {vals : List Json}, fields.length = vals.length →
      collectFields fields (vals.map some) = pure (vals.map some)
  | [], [], _ => rfl
  | f :: fields, v :: vals, h => by
    have ih := @collectFields_some fields vals (by simpa using h)
    simp only [collectFields] at ih ⊢
    simp [List.mapM_cons, ih]

/-- One field's member: the reader finds the key at the field's position, sees that the field
was not read yet, and reads the value. -/
theorem outcome_recordMembersFrom_cons {fields : List Field} {depth fuel : Nat}
    (hnames : (fields.map Field.name).Nodup) {pre : List Field} {q : Field × List Char × Option Json}
    {qs : List (Field × List Char × Option Json)} (hpre : fields = pre ++ q.1 :: qs.map Prod.fst)
    {vals : List Json} (hvals : vals.length = pre.length) {first : Bool} {u w r : List Char}
    (hstart : ∀ t, Reads (memberStart first) u true ((quote q.1.name).toList ++ t))
    {g : Json → Option (List (Option Json))} (hval : Outcome (q.1.read (depth - 1)) q.2.1 q.2.2 (w ++ r))
    (hrest : ∀ v, Outcome (recordMembersFrom fields depth fuel false
      ((vals ++ [v]).map some ++ qs.map fun _ => none)) w (g v) r) :
    Outcome (recordMembersFrom fields depth (fuel + 1) first
        (vals.map some ++ (q :: qs).map fun _ => none))
      (u ++ (memberText (q.1.name, q.2) ++ w)) (q.2.2.bind g) r := by
  have hname : q.1.name ∉ pre.map Field.name := by
    rw [hpre, List.map_append, List.map_cons] at hnames
    intro hmem
    exact (List.nodup_append.1 hnames).2.2 _ hmem _ List.mem_cons_self rfl
  have hfind : fields.findIdx? (fun x => x.name == q.1.name) = some pre.length := by
    rw [hpre]
    exact findIdx?_name hname
  have hgot : ((vals.map some ++ (q :: qs).map fun _ => none).getD pre.length none) = none := by
    rw [← hvals]
    simp [List.getD_eq_getElem?_getD]
  have hfield : fields.getD pre.length ⟨q.1.name, fun _ => pure Json.null, true⟩ = q.1 := by
    rw [hpre]
    simp
  have hset : ∀ v, setAt (vals.map some ++ (q :: qs).map fun _ => none) pre.length v =
      (vals ++ [v]).map some ++ qs.map fun _ => none := by
    intro v
    rw [← hvals]
    simp [setAt, List.set_append_right]
  have htext : memberText (q.1.name, q.2) ++ w = (quote q.1.name).toList ++ ([':'] ++ (q.2.1 ++ w)) := by
    simp [memberText]
  rw [htext]
  unfold recordMembersFrom
  refine Reads.outcome_bind (by rw [List.append_assoc]; exact hstart _) ?_
  simp only [if_true]
  refine Reads.outcome_bind (reads_key _ _) ?_
  simp only [hfind, hgot, Option.isSome_none, Bool.false_eq_true, if_false, hfield]
  refine Reads.outcome_bind (reads_colon _) ?_
  exact Outcome.bind hval fun v => by rw [hset]; exact hrest v

/-- The fields after the first, each after its comma, then the closing brace. -/
theorem outcome_recordMembersFrom_next {fields : List Field} {depth : Nat}
    (hnames : (fields.map Field.name).Nodup) :
    ∀ (qs : List (Field × List Char × Option Json)) (pre : List Field) (vals : List Json)
      (fuel : Nat) (r : List Char), fields = pre ++ qs.map Prod.fst → vals.length = pre.length →
      qs.length < fuel → FieldsRead depth qs →
      Outcome (recordMembersFrom fields depth fuel false (vals.map some ++ qs.map fun _ => none))
        (qs.flatMap fun q => ',' :: memberText (q.1.name, q.2))
        ((qs.mapM fun (q : Field × List Char × Option Json) => q.2.2).map
          fun ws => (vals ++ ws).map some) ('}' :: r)
  | [], pre, vals, fuel, r, hpre, hvals, hf, _ => by
    obtain ⟨fuel, rfl⟩ : ∃ k, fuel = k + 1 := ⟨fuel - 1, by simp at hf; omega⟩
    unfold recordMembersFrom
    refine Reads.bind (u := []) (reads_memberStart_close false r) ?_
    simp only [Bool.false_eq_true, if_false, List.map_nil, List.append_nil]
    rw [collectFields_some (by simp [hpre, hvals])]
    simpa using Reads.of_pure (vals.map some) ('}' :: r)
  | q :: qs, pre, vals, fuel, r, hpre, hvals, hf, hread => by
    obtain ⟨fuel, rfl⟩ : ∃ k, fuel = k + 1 := ⟨fuel - 1, by simp at hf; omega⟩
    have hrest v := outcome_recordMembersFrom_next hnames qs (pre ++ [q.1]) (vals ++ [v]) fuel r
      (by simp [hpre]) (by simp [hvals]) (by simp at hf; omega)
      (fun q' hq' => hread q' (List.mem_cons_of_mem _ hq'))
    rw [List.flatMap_cons, mapM_cons_bind, List.cons_append, ← List.singleton_append (x := ',')]
    refine outcome_recordMembersFrom_cons hnames hpre hvals (fun t => reads_memberStart_next _ t)
      (hread q (by simp) _ (by cases qs <;> simp [Closes])) fun v => ?_
    simpa using hrest v

/-- A record's members from the first: the fields joined by commas, up to the closing brace,
given more steps than fields. -/
theorem outcome_recordMembersFrom_first {fields : List Field} {depth : Nat}
    (hnames : (fields.map Field.name).Nodup) {qs : List (Field × List Char × Option Json)}
    (hfields : fields = qs.map Prod.fst) (hread : FieldsRead depth qs) (fuel : Nat)
    (hf : qs.length < fuel) (r : List Char) :
    Outcome (recordMembersFrom fields depth fuel true (fields.map fun _ => none))
      ([','].intercalate (qs.map fun q => memberText (q.1.name, q.2)))
      ((qs.mapM fun (q : Field × List Char × Option Json) => q.2.2).map fun ws => ws.map some)
      ('}' :: r) := by
  obtain ⟨fuel, rfl⟩ : ∃ k, fuel = k + 1 := ⟨fuel - 1, by omega⟩
  cases qs with
  | nil =>
    subst hfields
    unfold recordMembersFrom
    refine Reads.bind (u := []) (reads_memberStart_close true r) ?_
    exact Reads.of_pure _ _
  | cons q qs =>
    have hrest v := outcome_recordMembersFrom_next hnames qs [q.1] [v] fuel r
      (by simp [hfields]) rfl (by simp at hf; omega)
      (fun q' hq' => hread q' (List.mem_cons_of_mem _ hq'))
    have hgot : fields.map (fun _ => (none : Option Json)) =
        ([] : List Json).map some ++ (q :: qs).map fun _ => none := by
      simp [hfields, Function.comp_def]
    rw [List.map_cons, intercalate_comma_cons, List.flatMap_map, mapM_cons_bind, hgot,
      ← List.nil_append (memberText _ ++ _)]
    refine outcome_recordMembersFrom_cons hnames
      (show fields = [] ++ q.1 :: qs.map Prod.fst by simpa using hfields) rfl
      (fun t => reads_memberStart_first _ t)
      (hread q (by simp) _ (by cases qs <;> simp [Closes])) fun v => ?_
    simpa using hrest v

/-- A record written as an object whose members are its fields in order, each once: it comes
to the values in field order. -/
theorem outcome_recordOf {name : String} {fields : List Field} {depth : Nat} (hd : 1 < depth)
    (hnames : (fields.map Field.name).Nodup) {qs : List (Field × List Char × Option Json)}
    (hfields : fields = qs.map Prod.fst) (hread : FieldsRead depth qs) (r : List Char) :
    Outcome (recordOf name fields depth)
      ('{' :: ([','].intercalate (qs.map fun q => memberText (q.1.name, q.2)) ++ ['}']))
      ((qs.mapM fun (q : Field × List Char × Option Json) => q.2.2).map fun ws => ws.map some) r := by
  have hlen := @length_le_intercalate_comma (qs.map fun q => memberText (q.1.name, q.2))
    (fun t ht => by
      obtain ⟨q, -, rfl⟩ := List.mem_map.1 ht
      exact memberText_ne_nil _)
  have hmembers : Outcome (recordMembers fields depth)
      ([','].intercalate (qs.map fun q => memberText (q.1.name, q.2)))
      ((qs.mapM fun (q : Field × List Char × Option Json) => q.2.2).map fun ws => ws.map some)
      ('}' :: r) := by
    unfold recordMembers
    refine Reads.outcome_bind (u := []) (reads_remaining _) ?_
    refine outcome_recordMembersFrom_first hnames hfields hread _ ?_ r
    simp only [List.length_map, List.length_append, List.intercalate] at hlen ⊢
    omega
  unfold recordOf
  refine Outcome.attempt_bind ?_ (fun _ => rfl) (fun e t => failsOn_fix_throw e t)
  refine (reads_blanks (noLeadingBlank_cons (by decide) _)).continues_bind.outcome (u := []) ?_
  exact outcome_bracketed hd hmembers (reads_endObject r)

/-- Values read by readers that give them back whole. -/
theorem mapM_some_eq {γ α : Type} (f : γ → α) (xs : List γ) :
    xs.mapM (fun x => some (f x)) = some (xs.map f) :=
  List.mapM_pure (m := Option)

/-- The compact text of a record, a member per field in order, each value read back whole by
its field's reader: the record comes to the values in field order. -/
theorem reads_recordOf_compact {name : String} {fields : List Field} {depth : Nat}
    (hd : 1 < depth) (hnames : (fields.map Field.name).Nodup) (vs : List Json)
    (hread : List.Forall₂ (fun (f : Field) (v : Json) =>
      ∀ r, Closes r → Reads (f.read (depth - 1)) (compact v).toList v r) fields vs)
    (r : List Char) :
    Reads (recordOf name fields depth) (compact (.object ((fields.map Field.name).zip vs))).toList
      (vs.map some) r := by
  have hlen := hread.length_eq
  -- each field with the text of its value and the value it reads back
  let qs := fields.zip (vs.map fun v => ((compact v).toList, some v))
  have hfields : fields = qs.map Prod.fst := (List.map_fst_zip (by simp [hlen])).symm
  have hqs : FieldsRead depth qs := by
    intro q hq r hr
    simp only [qs, List.zip_map_right, List.mem_map] at hq
    obtain ⟨⟨f, v⟩, hfv, rfl⟩ := hq
    exact (List.forall₂_iff_zip.1 hread).2 hfv r hr
  have hvals : (qs.mapM fun (q : Field × List Char × Option Json) => q.2.2) = some vs := by
    simp only [qs, List.zip_map_right, List.mapM_map, Function.comp_def, Prod.map_snd]
    rw [mapM_some_eq, List.map_snd_zip (by simp [hlen])]
  have h : Outcome (recordOf name fields depth) _ _ r := outcome_recordOf hd hnames hfields hqs r
  rw [hvals] at h
  rw [compact_object_toList]
  simpa [qs, List.zip_map_left, List.zip_map_right, memberText, Function.comp_def] using h

end Json
end QueryShield
