import Mathlib
import QueryShield.Proofs.Json.RecordReading
import QueryShield.Cache.Binding

/-!
# Cached payloads read back

A read that goes through the cache stores its value as the compact JSON text of the value,
and a later hit reads the text back with the payload's reader.  This module says what comes
back, for every payload.

Versions, names, table descriptions, trigger maps, trigger texts and counts come back as they
were stored, given the bounds their types have: 32-bit version parts, increasing trigger
names, a count below `2^64`.

Row sets do not always: a double is written as its shortest digits, and the reader makes a
double of those digits with two roundings (`Binary64.textReading?`), which can land one unit
away from the double that was written; a double that is not finite is written as `null` and
comes back as null.  `RowSet.throughText?` is what a row set comes to that way, and the
payload reads exactly that back (`decode_rowSet`); a row set without a double comes back as it
was stored (`decode_rowSet_of_no_double`).  The double `9253028.069769885` is one that comes
back one unit lower (`rowSet_decode_lowers_double`).

The readers of versions and table descriptions are records (`reads_recordOf_compact`); the
others are sequences, maps, options and numbers of the generic readers.
-/

namespace QueryShield

namespace Json

variable {α : Type}

/-! ## Values read back whole -/

theorem compact_string (s : String) : compact (.string s) = quote s := by
  rw [compact]

theorem int_natCast (n : Nat) : Json.int n = .number (.unsigned n) := int_ofNat n

theorem compact_natCast (n : Nat) : (compact (Json.int n)).toList = Nat.toDigits 10 n := by
  rw [int_natCast, compact, JsonNumber.text_unsigned_toList]

theorem reads_stringOf_compact (expected s : String) (r : List Char) :
    Reads (stringOf expected) (compact (.string s)).toList s r := by
  rw [compact_string]
  exact reads_stringOf expected s r

/-- A number below `bound` is read back as the integer value it was written as. -/
theorem reads_unsignedBelow_int {bound n : Nat} (hn : n < bound) (hb : bound ≤ Nat.pow 2 64)
    (expected : String) {r : List Char} (hr : Closes r) :
    Reads (unsignedBelow bound expected >>= fun m => pure (Json.int m))
      (compact (Json.int n)).toList (Json.int n) r := by
  rw [compact_natCast]
  exact Reads.bind_pure (fun m : Nat => Json.int m) (reads_unsignedBelow hn hb expected hr.endsNumber)

theorem closes_nil : Closes [] := fun c hc => by simp at hc

/-- A reader that reads the whole text as `v` decodes it to `v`. -/
theorem eq_ok_of_toOption {ε : Type} {e : Except ε α} {v : α} (h : e.toOption = some v) :
    e = .ok v := by
  cases e <;> simp_all [Except.toOption]

theorem readAll_eq_ok {reader : Reading α} {text : String} {v : α}
    (h : Reads reader text.toList v []) : readAll reader text = .ok v :=
  eq_ok_of_toOption (readAll_toOption (o := some v) h)

end Json

/-! ## Versions and table descriptions -/

namespace ServerVersion

open Json

/-- A version whose parts fit 32 bits, as the parts of a version a server reports do. -/
def Fits (v : ServerVersion) : Prop :=
  v.major < Nat.pow 2 32 ∧ v.minor < Nat.pow 2 32 ∧ v.patch < Nat.pow 2 32

instance (v : ServerVersion) : Decidable v.Fits :=
  inferInstanceAs (Decidable (_ ∧ _ ∧ _))

/-- A version whose parts fit 32 bits is read back from its compact text. -/
theorem reads_read_compact {depth : Nat} (hd : 1 < depth) {v : ServerVersion} (hv : v.Fits)
    (r : List Char) : Reads (read depth) (compact v.toJson).toList v r := by
  obtain ⟨hmajor, hminor, hpatch⟩ := hv
  have h32 : Nat.pow 2 32 ≤ Nat.pow 2 64 := Nat.pow_le_pow_right (by norm_num) (by norm_num)
  unfold read
  dsimp only
  rw [← List.append_nil (compact v.toJson).toList]
  refine Reads.bind (reads_recordOf_compact hd (by decide)
    [Json.int v.major, Json.int v.minor, Json.int v.patch, .string v.raw] ?_ r) ?_
  · refine .cons ?_ (.cons ?_ (.cons ?_ (.cons ?_ .nil)))
    · exact fun r hr => reads_unsignedBelow_int hmajor h32 _ hr
    · exact fun r hr => reads_unsignedBelow_int hminor h32 _ hr
    · exact fun r hr => reads_unsignedBelow_int hpatch h32 _ hr
    · exact fun r _ => Reads.bind_pure Json.string (reads_stringOf_compact _ v.raw r)
  · simp only [List.map_cons, List.map_nil, int_natCast]
    exact Reads.of_pure v r

end ServerVersion

namespace ColumnInfo

open Json

/-- Every table description is read back from its compact text. -/
theorem reads_read_compact {depth : Nat} (hd : 1 < depth) (c : ColumnInfo) (r : List Char) :
    Reads (read depth) (compact c.toJson).toList c r := by
  obtain ⟨field, type, nullable, key, default, extra⟩ := c
  have hstr : ∀ s r, Reads (stringOf >>= fun t => pure (Json.string t)) (compact (.string s)).toList
      (.string s) r :=
    fun s r => Reads.bind_pure Json.string (reads_stringOf_compact _ s r)
  have hbool : ∀ r, Reads (boolOf >>= fun b => pure (Json.bool b)) (compact (.bool nullable)).toList
      (.bool nullable) r :=
    fun r => Reads.bind_pure Json.bool (reads_boolOf nullable r)
  unfold read
  dsimp only
  rw [← List.append_nil (compact _).toList]
  -- the default is written as a string or as null; both read back through the optional field
  cases default
  all_goals
    refine Reads.bind (reads_recordOf_compact hd (by decide)
      [.string field, .string type, .bool nullable, .string key, _, .string extra] ?_ r)
      (Reads.of_pure _ r)
    refine .cons (fun r _ => hstr field r) (.cons (fun r _ => hstr type r)
      (.cons (fun r _ => hbool r) (.cons (fun r _ => hstr key r) (.cons (fun r _ => ?_)
      (.cons (fun r _ => hstr extra r) .nil)))))
  case none =>
    rw [← List.append_nil (compact .null).toList]
    exact Reads.bind (reads_optionOf_none _ r) (Reads.of_pure _ r)
  case some d _ =>
    rw [compact_string, ← List.append_nil (quote d).toList]
    exact Reads.bind (reads_optionOf_string (reads_stringOf _ d r)) (Reads.of_pure _ r)

end ColumnInfo

namespace RowSet

open Json

/-- A row set as a database gives it: integers within 64 signed bits, and records whose keys
increase. -/
def Fits : RowSet → Prop
  | .rows items => ∀ row ∈ items, ∀ d ∈ row, d.Fits
  | .records items => ∀ rec ∈ items, (rec.map Prod.fst).Pairwise (· < ·) ∧ ∀ m ∈ rec, m.2.Fits

/-- What a row set is once written as JSON and read back: each datum as
`Datum.throughText?` makes it; `none` when the text of a double overflows. -/
def throughText? : RowSet → Option RowSet
  | .rows items => (items.mapM fun (row : Row) => row.mapM Datum.throughText?).map .rows
  | .records items =>
    (items.mapM fun (rec : Record) =>
      rec.mapM fun (m : String × Datum) => m.2.throughText?.map (m.1, ·)).map .records

/-- The data of a row set, row by row or record by record. -/
def data : RowSet → List Datum
  | .rows items => items.flatten
  | .records items => items.flatMap fun rec => rec.map Prod.snd

theorem mapM_eq_some_self {α : Type} {f : α → Option α} :
    ∀ {xs : List α}, (∀ x ∈ xs, f x = some x) → xs.mapM f = some xs
  | [], _ => rfl
  | x :: xs, h => by
    have ih := mapM_eq_some_self (fun y hy => h y (List.mem_cons_of_mem x hy))
    simp [List.mapM_cons, h x List.mem_cons_self, ih]

/-- Only doubles change on the way through their text: a row set without one comes back as
itself. -/
theorem throughText?_of_no_double {rs : RowSet} (h : ∀ d ∈ rs.data, ∀ x, d ≠ .float x) :
    rs.throughText? = some rs := by
  have hdatum : ∀ d ∈ rs.data, d.throughText? = some d := by
    intro d hd
    cases d with
    | float x => exact absurd rfl (h _ hd x)
    | _ => rfl
  cases rs with
  | rows items =>
    have hrows : (items.mapM fun (row : Row) => row.mapM Datum.throughText?) = some items :=
      mapM_eq_some_self fun row hrow => mapM_eq_some_self fun d hd =>
        hdatum d (List.mem_flatten.2 ⟨row, hrow, hd⟩)
    simp only [throughText?, hrows, Option.map_some]
  | records items =>
    have hrecords : (items.mapM fun (rec : Record) =>
        rec.mapM fun (m : String × Datum) => m.2.throughText?.map (m.1, ·)) = some items :=
      mapM_eq_some_self fun rec hrec => mapM_eq_some_self fun m hm => by
        rw [hdatum m.2 (List.mem_flatMap.2 ⟨rec, hrec, List.mem_map_of_mem hm⟩)]
        rfl
    simp only [throughText?, hrecords, Option.map_some]

theorem outcome_readRow {depth : Nat} (hd : 2 < depth) {row : Row} (hrow : ∀ d ∈ row, d.Fits)
    (r : List Char) :
    Outcome (readRow depth) (compact (.array (row.map Datum.toJson))).toList
      (row.mapM Datum.throughText?) r := by
  unfold readRow
  refine outcome_seqOf_compact (by omega) Datum.toJson Datum.throughText? (fun d hd' r hr => ?_) r
  obtain ⟨k, hk⟩ : ∃ k, depth - 1 = k + 1 := ⟨depth - 2, by omega⟩
  rw [hk]
  exact Datum.outcome_read_compact k (hrow d hd') hr

theorem outcome_readRecord {depth : Nat} (hd : 2 < depth) {rec : Record}
    (hsorted : (rec.map Prod.fst).Pairwise (· < ·)) (hfits : ∀ m ∈ rec, m.2.Fits) (r : List Char) :
    Outcome (readRecord depth) (compact rec.toJson).toList
      (rec.mapM fun (m : String × Datum) => m.2.throughText?.map (m.1, ·)) r := by
  unfold readRecord
  refine outcome_mapOf_compact (by omega) Datum.toJson Datum.throughText? hsorted
    (fun m hm r hr => ?_) r
  obtain ⟨k, hk⟩ : ∃ k, depth - 1 = k + 1 := ⟨depth - 2, by omega⟩
  rw [hk]
  exact Datum.outcome_read_compact k (hfits m hm) hr

/-- The items of a row set are read back under its shape. -/
theorem outcome_readItems {depth : Nat} (hd : 3 < depth) {rs : RowSet} (hfits : rs.Fits)
    (r : List Char) :
    Outcome (readItems rs.shape depth) (compact rs.itemsJson).toList rs.throughText? r := by
  cases rs with
  | rows items =>
    have hrows : ∀ row ∈ items, ∀ r, Closes r → Outcome (readRow (depth - 1))
        (compact (.array (row.map Datum.toJson))).toList (row.mapM Datum.throughText?) r :=
      fun row hrow r _ => outcome_readRow (by omega) (hfits row hrow) r
    have h : Outcome (seqOf "a sequence" readRow depth)
        (compact (.array (items.map fun row => .array (row.map Datum.toJson)))).toList
        (items.mapM fun (row : Row) => row.mapM Datum.throughText?) r :=
      outcome_seqOf_compact (by omega) _ _ hrows r
    have hitems : readItems "rows" depth = RowSet.rows <$> seqOf "a sequence" readRow depth := by
      simp only [readItems, beq_self_eq_true, if_true]
    show Outcome (readItems "rows" depth) _ _ _
    rw [hitems]
    exact h.map RowSet.rows
  | records items =>
    have hrecords : ∀ rec ∈ items, ∀ r, Closes r → Outcome (readRecord (depth - 1))
        (compact rec.toJson).toList
        (rec.mapM fun (m : String × Datum) => m.2.throughText?.map (m.1, ·)) r :=
      fun rec hrec r _ => outcome_readRecord (by omega) (hfits rec hrec).1 (hfits rec hrec).2 r
    have h : Outcome (seqOf "a sequence" readRecord depth)
        (compact (.array (items.map Record.toJson))).toList
        (items.mapM fun (rec : Record) =>
          rec.mapM fun (m : String × Datum) => m.2.throughText?.map (m.1, ·)) r :=
      outcome_seqOf_compact (by omega) _ _ hrecords r
    have hitems : readItems "records" depth =
        RowSet.records <$> seqOf "a sequence" readRecord depth := by
      simp only [readItems, if_neg (show ¬(("records" == "rows") = true) by decide)]
    show Outcome (readItems "records" depth) _ _ _
    rw [hitems]
    exact h.map RowSet.records

/-! ## The object of a row set -/

theorem reads_readMembersFrom_close (depth fuel : Nat) (s : String) (rs : RowSet) (r : List Char) :
    Reads (readMembersFrom depth (fuel + 1) false (some s) none (some rs)) [] rs ('}' :: r) := by
  unfold readMembersFrom
  exact Reads.bind (u := []) (reads_memberStart_close false r) (Reads.of_pure _ _)

theorem reads_readShape {s : String} (hs : s ∈ shapes) (r : List Char) :
    Reads readShape (quote s).toList s r := by
  unfold readShape
  rw [← List.append_nil (quote s).toList]
  refine Reads.bind (reads_stringOf _ s _) ?_
  simp only [List.elem_eq_mem, hs, decide_true, if_true]
  exact Reads.of_pure s r

theorem outcome_readMembersFrom_items {depth fuel : Nat} {s : String} {items : List Char}
    {o : Option RowSet} (h : Outcome (readItems s (depth - 1)) items o ('}' :: r)) :
    Outcome (readMembersFrom depth (fuel + 2) false (some s) none none)
      (',' :: ((quote "items").toList ++ ':' :: items)) o ('}' :: r) := by
  unfold readMembersFrom
  rw [← List.singleton_append]
  refine Reads.outcome_bind (by rw [List.append_assoc]; exact reads_memberStart_next "items" _) ?_
  simp only [if_true]
  refine Reads.outcome_bind (reads_key "items" _) ?_
  simp only [show ("items" == "shape") = false by decide, Bool.false_eq_true, if_false,
    beq_self_eq_true, if_true, Option.isSome_none, Bool.or_self]
  rw [← List.singleton_append]
  refine Reads.outcome_bind (reads_colon _) ?_
  have hend := Outcome.bind (w := []) (g := some) (by simpa using h)
    fun a => reads_readMembersFrom_close depth fuel s a r
  simpa using hend

theorem outcome_readMembersFrom_shape {depth fuel : Nat} {s : String} (hs : s ∈ shapes)
    {rest r : List Char} {o : Option RowSet}
    (h : Outcome (readMembersFrom depth fuel false (some s) none none) rest o r) :
    Outcome (readMembersFrom depth (fuel + 1) true none none none)
      ((quote "shape").toList ++ ':' :: ((quote s).toList ++ rest)) o r := by
  unfold readMembersFrom
  refine Reads.outcome_bind (u := []) (w := (quote "shape").toList ++ ':' :: ((quote s).toList ++ rest))
    (by rw [List.append_assoc]; exact reads_memberStart_first "shape" _) ?_
  simp only [if_true]
  refine Reads.outcome_bind (reads_key "shape" _) ?_
  simp only [beq_self_eq_true, if_true, Option.isSome_none, Bool.false_eq_true, if_false]
  rw [← List.singleton_append]
  refine Reads.outcome_bind (reads_colon _) ?_
  refine Reads.outcome_bind (reads_readShape hs _) ?_
  simpa using h

/-- The members of a row set's object: the shape, then the items. -/
theorem outcome_readMembers {depth : Nat} (hd : 4 < depth) {rs : RowSet} (hfits : rs.Fits)
    (r : List Char) :
    Outcome (readMembers depth)
      ((quote "shape").toList ++ ':' :: ((quote rs.shape).toList ++
        ',' :: ((quote "items").toList ++ ':' :: (compact rs.itemsJson).toList)))
      rs.throughText? ('}' :: r) := by
  have hs : rs.shape ∈ shapes := by
    cases rs <;> simp [shape, shapes]
  have hitems : Outcome (readItems rs.shape (depth - 1)) (compact rs.itemsJson).toList
      rs.throughText? ('}' :: r) :=
    outcome_readItems (by omega) hfits ('}' :: r)
  unfold readMembers
  refine Reads.outcome_bind (u := []) (reads_remaining _) ?_
  -- three members are tried: the shape, the items and the closing brace
  generalize hn : List.length _ = n
  obtain ⟨fuel, rfl⟩ : ∃ fuel, n = fuel + 2 := ⟨n - 2, by simp [quote_toList] at hn; omega⟩
  exact outcome_readMembersFrom_shape hs (outcome_readMembersFrom_items hitems)

/-- A row set is read back from its compact text as `throughText?` says. -/
theorem outcome_read_compact {depth : Nat} (hd : 4 < depth) {rs : RowSet} (hfits : rs.Fits)
    (r : List Char) : Outcome (read depth) (compact rs.toJson).toList rs.throughText? r := by
  unfold read
  refine Outcome.attempt_bind ?_ (fun _ => rfl) (fun e t => failsOn_fix_throw e t)
  rw [toJson, compact_object_toList]
  refine (reads_blanks (noLeadingBlank_cons (by decide) _)).continues_bind.outcome (u := []) ?_
  simp only [List.head?_cons]
  refine outcome_bracketed (by omega) ?_ (reads_endObject r)
  simpa [Json.compact_string, List.intercalate] using outcome_readMembers hd hfits r

end RowSet

/-! ## Payloads -/

namespace Payload

open Json

/-- A payload whose reader reads the compact text of a value back whole decodes that text to
the value. -/
theorem decode_ofReader {α : Type} {encode : α → Json} {reader : Nat → Reading α} {v : α}
    (h : Reads (reader nestingLimit) (compact (encode v)).toList v []) :
    (ofReader encode reader).decode (compact ((ofReader encode reader).encode v)) = .ok v :=
  readAll_eq_ok h

theorem decode_version {v : ServerVersion} (hv : v.Fits) :
    version.decode (compact (version.encode v)) = .ok v :=
  decode_ofReader (ServerVersion.reads_read_compact (by decide) hv [])

theorem decode_names (ns : List String) : names.decode (compact (names.encode ns)) = .ok ns := by
  have h : Outcome (seqOf "a sequence" (fun _ => stringOf) nestingLimit)
      (compact (.array (ns.map Json.string))).toList (ns.mapM some) [] := by
    refine outcome_seqOf_compact (by decide) Json.string some (fun s _ r _ => ?_) []
    exact reads_stringOf_compact _ s r
  have hsome : ns.mapM some = some ns := by simpa using mapM_some_eq (fun s => s) ns
  rw [hsome] at h
  exact decode_ofReader h

theorem decode_columns (cs : List ColumnInfo) :
    columns.decode (compact (columns.encode cs)) = .ok cs := by
  have h : Outcome (seqOf "a sequence" ColumnInfo.read nestingLimit)
      (compact (.array (cs.map ColumnInfo.toJson))).toList (cs.mapM some) [] :=
    outcome_seqOf_compact (by decide) ColumnInfo.toJson some
      (fun c _ r _ => ColumnInfo.reads_read_compact (by decide) c r) []
  have hsome : cs.mapM some = some cs := by simpa using mapM_some_eq (fun c => c) cs
  rw [hsome] at h
  exact decode_ofReader h

/-- Triggers sorted by name, each name once, as a map keeps them. -/
theorem decode_triggers {ts : List (String × String)} (hsorted : (ts.map Prod.fst).Pairwise (· < ·)) :
    triggers.decode (compact (triggers.encode ts)) = .ok ts := by
  have h : Outcome (mapOf "a map" (fun _ => stringOf) nestingLimit)
      (compact (.object (ts.map fun (m : String × String) => (m.1, Json.string m.2)))).toList
      (ts.mapM fun (m : String × String) => (some m.2).map (m.1, ·)) [] := by
    refine outcome_mapOf_compact (by decide) Json.string some hsorted (fun m _ r _ => ?_) []
    exact reads_stringOf_compact _ m.2 r
  have hsome : (ts.mapM fun (m : String × String) => (some m.2).map (m.1, ·)) = some ts := by
    simpa using mapM_some_eq (fun m => m) ts
  rw [hsome] at h
  exact decode_ofReader h

theorem decode_trigger (t : Option String) :
    trigger.decode (compact (trigger.encode t)) = .ok t := by
  refine decode_ofReader ?_
  cases t with
  | none => exact reads_optionOf_none _ []
  | some s =>
    show Reads (optionOf stringOf) (compact (.string s)).toList (some s) []
    rw [compact_string]
    exact reads_optionOf_string (reads_stringOf _ s [])

theorem decode_count {n : Nat} (hn : n < Nat.pow 2 64) :
    count.decode (compact (count.encode n)) = .ok n := by
  refine decode_ofReader ?_
  show Reads (unsignedBelow (Nat.pow 2 64) "u64") (compact (Json.int n)).toList n []
  rw [compact_natCast]
  exact reads_unsignedBelow hn le_rfl "u64" closes_nil.endsNumber

/-- A row set comes back as its data come through their text. -/
theorem decode_rowSet {rs : RowSet} (hfits : rs.Fits) :
    (rowSet.decode (compact (rowSet.encode rs))).toOption = rs.throughText? :=
  readAll_toOption (RowSet.outcome_read_compact (by decide) hfits [])

/-- A row set without a double comes back as it was stored. -/
theorem decode_rowSet_of_no_double {rs : RowSet} (hfits : rs.Fits)
    (h : ∀ d ∈ rs.data, ∀ x, d ≠ .float x) :
    rowSet.decode (compact (rowSet.encode rs)) = .ok rs :=
  eq_ok_of_toOption (by rw [decode_rowSet hfits, RowSet.throughText?_of_no_double h])

/-- What a cached payload decodes to: every payload but a row set comes back as it was stored,
given the bounds of its type, and a row set comes back as its data come through their text. -/
theorem decode_compact_encode (v : ServerVersion) (ns : List String) (cs : List ColumnInfo)
    (ts : List (String × String)) (t : Option String) (n : Nat) (rs : RowSet) :
    (v.Fits → version.decode (compact (version.encode v)) = .ok v) ∧
    names.decode (compact (names.encode ns)) = .ok ns ∧
    columns.decode (compact (columns.encode cs)) = .ok cs ∧
    ((ts.map Prod.fst).Pairwise (· < ·) → triggers.decode (compact (triggers.encode ts)) = .ok ts) ∧
    trigger.decode (compact (trigger.encode t)) = .ok t ∧
    (n < Nat.pow 2 64 → count.decode (compact (count.encode n)) = .ok n) ∧
    (rs.Fits → (rowSet.decode (compact (rowSet.encode rs))).toOption = rs.throughText?) :=
  ⟨decode_version, decode_names ns, decode_columns cs, decode_triggers, decode_trigger t,
    decode_count, decode_rowSet⟩

theorem decode_compact_encode_of_version_and_triggers :
    ServerVersion.Fits ⟨8, 0, 36, "8.0.36"⟩ ∧
      version.decode (compact (version.encode ⟨8, 0, 36, "8.0.36"⟩)) = .ok ⟨8, 0, 36, "8.0.36"⟩ ∧
    (([("audit", "x"), ("stamp", "y")] : List (String × String)).map Prod.fst).Pairwise (· < ·) ∧
      triggers.decode (compact (triggers.encode [("audit", "x"), ("stamp", "y")])) =
        .ok [("audit", "x"), ("stamp", "y")] := by
  have hv : ServerVersion.Fits ⟨8, 0, 36, "8.0.36"⟩ := by decide
  have hts : (([("audit", "x"), ("stamp", "y")] : List (String × String)).map Prod.fst).Pairwise
      (· < ·) := by decide
  have h := decode_compact_encode ⟨8, 0, 36, "8.0.36"⟩ [] [] [("audit", "x"), ("stamp", "y")] none 0
    (.rows [])
  exact ⟨hv, h.1 hv, hts, h.2.2.2.1 hts⟩

/-- The double `9253028.069769885`, stored in a row set, comes back one unit lower: its text is
its shortest digits, and the reader's two roundings make `9253028.069769884` of them. -/
theorem rowSet_decode_lowers_double :
    rowSet.decode (compact (rowSet.encode (.rows [[.float ⟨0x4161a614823b8e0e⟩]]))) =
        .ok (.rows [[.float ⟨0x4161a614823b8e0d⟩]]) ∧
      Binary64.exchangeText ⟨0x4161a614823b8e0e⟩ = "9253028.069769885" ∧
      Binary64.exchangeText ⟨0x4161a614823b8e0d⟩ = "9253028.069769884" := by
  -- one kernel evaluation for the texts and the reading of the first one
  have hrun : Binary64.isFinite ⟨0x4161a614823b8e0e⟩ = true ∧
      Binary64.textReading? ⟨0x4161a614823b8e0e⟩ = some ⟨0x4161a614823b8e0d⟩ ∧
      Binary64.exchangeText ⟨0x4161a614823b8e0e⟩ = "9253028.069769885" ∧
      Binary64.exchangeText ⟨0x4161a614823b8e0d⟩ = "9253028.069769884" := by
    decide +kernel
  obtain ⟨hfin, hread, htext⟩ := hrun
  have hfits : (RowSet.rows [[.float ⟨0x4161a614823b8e0e⟩]]).Fits := by
    simp [RowSet.Fits, Datum.Fits]
  have h := decode_rowSet hfits
  simp only [RowSet.throughText?, List.mapM_cons, List.mapM_nil, Datum.throughText?, hfin, hread,
    if_true] at h
  exact ⟨eq_ok_of_toOption h, htext⟩

end Payload
end QueryShield
