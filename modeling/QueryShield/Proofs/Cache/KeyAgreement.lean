import Mathlib
import QueryShield.Proofs.Cache.PatternCoverage
import QueryShield.Proofs.Guard.Semicolon
import QueryShield.Rehearsal.Stage
/-!
# Equal keys, equal reads

A binding answers a read from the store whenever an entry sits under the read's key, so a key
has to name everything the read's statements depend on: two reads that share a key should be
one and the same conversation with the database.  Keys are built from normalized names
(trimmed, one pair of backticks taken off) and end in the digest of the read's parameters;
the statements quote names, and quoting normalizes them in the same way.  So a read depends on
its names only through their normal forms (`Statements.describe_congr`,
`Statements.trigger_congr`, `Statements.rows_congr`, `Statements.size_congr`), and a key path
splits in one way only into the words naming the read, its name and its digest, since a digest
is hexadecimal (`Json.colon_not_mem_fingerprint`, `append_sep_inj`, `append_colon_inj`).

Three spellings escape the key, and `Operation.KeyFaithful` leaves them out: a trigger name
holding `:` (`a:<digest>` reads like the name `a` with a database digest), a database name of
the trigger names that is not in normal form (the statement binds it as written), and a counted
column written as `*` or the empty name in backticks (the key reads `*` and the empty name,
which count every row, while the statement quotes the name and refuses it).  With those left
out, and with no two parameter sets sharing a digest, two reads whose keys render alike have one
plan (`Operation.plan_eq_of_render_eq`): the payload their value is stored with, the query behind
it and what the front does with it (`ReadPlan`).  So they are one conversation
(`Operation.uncached_reads_agree_of_key_eq`).  `quoted_star_count_shares_key`
shows the third spelling: one key, a count on one side and a refusal on the other.
-/

namespace QueryShield

/-! ## Digests hold no separator -/

theorem Sha256.wordHex_chars (x : UInt32) :
    ∀ c ∈ (Sha256.wordHex x).toList, c ∈ "0123456789abcdef".toList := by
  intro c hc
  simp only [Sha256.wordHex, String.toList_ofList, List.mem_map] at hc
  obtain ⟨i, -, rfl⟩ := hc
  rw [List.getD_eq_getElem?_getD]
  cases h : ("0123456789abcdef".toList)[x.toNat / Nat.pow 16 i % 16]? with
  | none => decide
  | some d => exact List.mem_of_getElem? h

theorem Sha256.hex_chars (text : String) :
    ∀ c ∈ (Sha256.hex text).toList, c ∈ "0123456789abcdef".toList := by
  intro c hc
  -- the digest is the eight words of the final state, each written in hexadecimal
  simp only [Sha256.hex, Sha256.hexOfBytes] at hc
  simp at hc
  rcases hc with h | h | h | h | h | h | h | h <;> exact wordHex_chars _ c h

/-- A fingerprint is hexadecimal: it holds no `:`, so it cannot hide a key separator. -/
theorem Json.colon_not_mem_fingerprint (v : Json) : ':' ∉ (Json.fingerprint v).toList := by
  intro h
  simp only [Json.fingerprint, String.toList_ofList] at h
  have := Sha256.hex_chars _ ':' (List.mem_of_mem_take h)
  revert this
  decide

/-! ## The key of each read -/

namespace Operation

/-- The key under which a binding caches a read; none for a write. -/
def readKey (b : Binding) : Operation → Option CacheKey
  | .serverVersion _ => some b.versionKey
  | .tableNames _ => some b.tableNamesKey
  | .columnNames table _ => some (b.columnNamesKey table)
  | .describe table _ => some (b.describeKey table)
  | .triggers _ => some b.triggersKey
  | .trigger name database _ => some (b.triggerKey name database)
  | .triggerNames database _ => some (b.triggerNamesKey database)
  | .rows table columns filter asRecords _ => some (b.rowsKey table columns filter asRecords)
  | .size table column filter _ => some (b.sizeKey table column filter)
  | _ => none

/-- The parameters a read's key carries; their digest ends the key. -/
def keyFields : Operation → KeyFields
  | .trigger _ database _ => Binding.databaseFields database
  | .triggerNames database _ => Binding.databaseFields database
  | .rows table columns filter asRecords _ =>
    (((({} : KeyFields).put "table" (.string (Name.normalize table))).put "column"
      columns.toJson).put "where" filter.toJson).put "beautify" (.bool asRecords)
  | .size table column filter _ =>
    ((({} : KeyFields).put "table" (.string (Name.normalize table))).put "column"
      (.string (Name.normalize column))).put "where" filter.toJson
  | _ => {}

/-- The reads whose key keeps everything their statements read of the arguments.  Three
spellings are lost in a key: a `:` in a trigger name, which the key cannot tell from the `:`
before a digest; a database name of the trigger names that is not in normal form, which the
key normalizes while the statement binds it as written; and a counted column written as a
quoted `*` or a quoted empty name, which the key reads as `*` and the empty name (both count
every row) while the statement quotes them. -/
def KeyFaithful : Operation → Prop
  | .trigger name _ _ => ':' ∉ (Name.normalize name).toList
  | .triggerNames (some database) _ => Name.normalize database = database
  | .size _ column _ _ => Text.trim column ≠ "``" ∧ Text.trim column ≠ "`*`"
  | _ => True

variable {b : Binding} {r : Operation} {k : CacheKey}

theorem readKey_holds (h : r.readKey b = some k) : b.space.Holds k := by
  cases r <;> simp only [readKey, reduceCtorEq, Option.some.injEq] at h <;> subst h <;>
    exact ⟨rfl, rfl⟩

end Operation

/-! ## What a read does around the cache -/

/-- A read of the front apart from its key and lifetime: the payload its value is stored with,
the query that reads the value from the database, the outcome the value makes, and what the
front records once it has the value (the server's version, kept for creating tables). -/
structure ReadPlan where
  α : Type
  payload : Payload α
  query : Query α
  outcome : α → Outcome
  record : α → Query Unit

/-- What the front does with a read's value, wherever it came from. -/
def ReadPlan.finish (p : ReadPlan) (v : p.α) : Query Outcome :=
  p.record v >>= fun _ => pure (p.outcome v)

namespace Operation

/-- The plan of a read; none for a write. -/
def plan? (clock : Stamp) : Operation → Option ReadPlan
  | .serverVersion _ => some ⟨_, Payload.version, Statements.serverVersion, .version,
      fun v => Query.ask (.noteVersion (some v))⟩
  | .tableNames _ => some ⟨_, Payload.names, Statements.tableNames, .names, fun _ => pure ()⟩
  | .columnNames table _ =>
    some ⟨_, Payload.names, Statements.columnNames table, .names, fun _ => pure ()⟩
  | .describe table _ =>
    some ⟨_, Payload.columns, Statements.describe table, .columns, fun _ => pure ()⟩
  | .triggers _ => some ⟨_, Payload.triggers, Statements.triggers, .triggers, fun _ => pure ()⟩
  | .trigger name database _ =>
    some ⟨_, Payload.trigger, Statements.trigger name database, .trigger, fun _ => pure ()⟩
  | .triggerNames database _ =>
    some ⟨_, Payload.names, Statements.triggerNames database, .names, fun _ => pure ()⟩
  | .rows table columns filter asRecords _ =>
    some ⟨_, Payload.rowSet, Statements.rows clock table columns filter asRecords, .rowSet,
      fun _ => pure ()⟩
  | .size table column filter _ =>
    some ⟨_, Payload.count, Statements.size clock table column filter, .count, fun _ => pure ()⟩
  | _ => none

/-- The lifetime a read asks for in place of its category's; none for a write. -/
def override : Operation → Option Int
  | .serverVersion ttl | .tableNames ttl | .columnNames _ ttl | .describe _ ttl | .triggers ttl
  | .trigger _ _ ttl | .triggerNames _ ttl | .rows _ _ _ _ ttl | .size _ _ _ ttl => ttl
  | _ => none

variable {clock : Stamp} {b : Binding} {r : Operation} {k : CacheKey} {p : ReadPlan}

theorem plan_of_readKey (h : r.readKey b = some k) (clock : Stamp) : ∃ p, r.plan? clock = some p := by
  cases r <;> simp only [readKey, reduceCtorEq] at h <;> exact ⟨_, rfl⟩

theorem readKey_of_plan (h : r.plan? clock = some p) (b : Binding) : ∃ k, r.readKey b = some k := by
  cases r <;> simp only [plan?, reduceCtorEq] at h <;> exact ⟨_, rfl⟩

/-- Without a binding a read is its query, then what the front does with the value. -/
theorem perform_none_of_plan (h : r.plan? clock = some p) :
    Front.perform clock none r = p.query >>= p.finish := by
  cases r <;> simp only [plan?, reduceCtorEq, Option.some.injEq] at h <;> subst h <;> rfl

/-- Through a binding a read goes through the cache under its key, then the front does the same
with the value. -/
theorem perform_some_of_plan (h : r.plan? clock = some p) (hk : r.readKey b = some k) :
    Front.perform clock (some b) r = b.readThrough k r.override p.payload p.query >>= p.finish := by
  cases r <;> simp only [plan?, readKey, reduceCtorEq, Option.some.injEq] at h hk <;> subst h hk <;>
    rfl

end Operation

/-! ## Key paths -/

namespace KeyFields

theorem digest_eq_some {f : KeyFields} (h : f.fields ≠ []) :
    f.digest = some (Json.fingerprint (.object f.fields)) := by
  simp [digest, h]

/-- The parameters of a row count, in their sorted order. -/
theorem count_fields (t c w : Json) :
    ((({} : KeyFields).put "table" t).put "column" c |>.put "where" w).fields =
      [("column", c), ("table", t), ("where", w)] := by
  simp [put, Json.insertSorted, show "column" < "table" by decide,
    show ¬ "where" < "column" by decide, show ¬ "where" < "table" by decide]

/-- The parameters of a row read, in their sorted order. -/
theorem rows_fields (t c w e : Json) :
    (((({} : KeyFields).put "table" t).put "column" c |>.put "where" w) |>.put "beautify" e).fields =
      [("beautify", e), ("column", c), ("table", t), ("where", w)] := by
  simp [put, Json.insertSorted, show "column" < "table" by decide,
    show ¬ "where" < "column" by decide, show ¬ "where" < "table" by decide,
    show "beautify" < "column" by decide]

end KeyFields

namespace Binding

variable (b : Binding)

@[simp] theorem path_versionKey : b.versionKey.path = "version:db_version".toList := by
  simp [versionKey, KeySpace.path_key, Category.name]

@[simp] theorem path_tableNamesKey : b.tableNamesKey.path = "schema:table_names".toList := by
  simp [tableNamesKey, KeySpace.path_key, Category.name]

@[simp] theorem path_columnNamesKey (table : String) :
    (b.columnNamesKey table).path = "schema:columns:".toList ++ (Name.normalize table).toList := by
  simp [columnNamesKey, KeySpace.path_key, Category.name]

@[simp] theorem path_describeKey (table : String) :
    (b.describeKey table).path = "schema:describe:".toList ++ (Name.normalize table).toList := by
  simp [describeKey, KeySpace.path_key, Category.name]

@[simp] theorem path_triggersKey : b.triggersKey.path = "schema:triggers".toList := by
  simp [triggersKey, KeySpace.path_key, Category.name]

@[simp] theorem path_triggerKey (name : String) (database : Option String) :
    (b.triggerKey name database).path = "schema:trigger:".toList ++
      ((Name.normalize name).toList ++
        (databaseFields database).digest.elim [] fun h => ':' :: h.toList) := by
  simp [triggerKey, KeySpace.path_keyWith, Category.name]

@[simp] theorem path_triggerNamesKey (database : Option String) :
    (b.triggerNamesKey database).path = "schema:trigger_names".toList ++
      (databaseFields database).digest.elim [] fun h => ':' :: h.toList := by
  simp [triggerNamesKey, KeySpace.path_keyWith, Category.name]

@[simp] theorem path_sizeKey (table column : String) (filter : RowFilter) :
    (b.sizeKey table column filter).path = "count:".toList ++ ((Name.normalize table).toList ++
      ':' :: (Json.fingerprint (.object [("column", .string (Name.normalize column)),
        ("table", .string (Name.normalize table)), ("where", filter.toJson)])).toList) := by
  simp [sizeKey, KeySpace.path_keyWith, Category.name, KeyFields.count_fields,
    KeyFields.digest_eq_some]

@[simp] theorem path_rowsKey (table : String) (columns : Projection) (filter : RowFilter)
    (asRecords : Bool) :
    (b.rowsKey table columns filter asRecords).path = "data:".toList ++
      ((Name.normalize table).toList ++ ':' :: (Json.fingerprint (.object [("beautify",
        .bool asRecords), ("column", columns.toJson), ("table", .string (Name.normalize table)),
        ("where", filter.toJson)])).toList) := by
  simp [rowsKey, KeySpace.path_keyWith, Category.name, KeyFields.rows_fields,
    KeyFields.digest_eq_some]

theorem databaseFields_congr {d d' : Option String} (h : databaseFields d = databaseFields d') :
    d.map Name.normalize = d'.map Name.normalize := by
  cases d <;> cases d' <;> simp_all [databaseFields, KeyFields.put, Json.insertSorted]

end Binding

namespace CacheKey

/-- Two keys of one key space render alike exactly when their paths agree. -/
theorem path_eq_of_render_eq {s : KeySpace} {k k' : CacheKey} (hk : s.Holds k) (hk' : s.Holds k')
    (h : k.render = k'.render) : k.path = k'.path := by
  have hl := congrArg String.toList h
  rw [render_toList, render_toList, hk.1, hk.2, hk'.1, hk'.2] at hl
  exact List.append_cancel_left hl

end CacheKey

/-- A name and a digest after the last `:`: a digest holds no `:`, so the split is unique. -/
theorem append_colon_inj {a a' h h' : List Char} (hh : ':' ∉ h) (hh' : ':' ∉ h')
    (heq : a ++ ':' :: h = a' ++ ':' :: h') : a = a' ∧ h = h' := by
  have hrev := congrArg List.reverse heq
  simp only [List.reverse_append, List.reverse_cons, List.append_assoc, List.singleton_append]
    at hrev
  obtain ⟨hd, ha⟩ := (append_sep_inj (by simpa using hh) (by simpa using hh')
    (.inr ⟨_, rfl⟩) (.inr ⟨_, rfl⟩)).1 hrev
  exact ⟨List.reverse_injective (List.cons_injective ha), List.reverse_injective hd⟩

/-- The digest part of a path tells the digest. -/
theorem hashTail_inj {h h' : Option String}
    (heq : (h.elim [] fun h => ':' :: h.toList) = h'.elim [] fun h => ':' :: h.toList) :
    h = h' := by
  cases h <;> cases h' <;> simp_all [String.ext_iff]

theorem Projection.toJson_inj {p p' : Projection} (h : p.toJson = p'.toJson) : p = p' := by
  cases p <;> cases p' <;> simp_all [Projection.toJson]
  exact List.map_injective_iff.2 (fun _ _ h => Json.string.inj h) h

theorem RowFilter.toJson_inj {f f' : RowFilter} (h : f.toJson = f'.toJson) : f = f' := by
  cases f <;> cases f' <;> simp_all [RowFilter.toJson]
  exact List.map_injective_iff.2 (fun _ _ h => Json.string.inj h) h

/-! ## Reads depend on names through their normal form -/

theorem Text.trim_trim (s : String) : Text.trim (Text.trim s) = Text.trim s := by
  simp only [Text.trim, String.toList_ofList, Text.trimChars_trimChars]

namespace Name

theorem normalize_trim (s : String) : normalize (Text.trim s) = normalize s := by
  unfold normalize
  rw [Text.trim_trim]

/-- Normalizing takes off one pair of backticks: a name normalizes to `*` or to the empty name
exactly when, trimmed, it is one of them or one of them in backticks. -/
theorem normalize_star_or_empty (s : String) :
    (normalize s = "" ∨ normalize s = "*") ↔ Text.trim s ∈ ["", "*", "``", "`*`"] := by
  unfold normalize
  generalize Text.trim s = t
  obtain ⟨cs, rfl⟩ : ∃ cs, t = String.ofList cs := ⟨t.toList, String.ofList_toList.symm⟩
  simp only [String.toList_ofList]
  split
  · -- a name in backticks: normalizing strips them
    rename_i hcond
    simp only [Bool.and_eq_true, decide_eq_true_eq, beq_iff_eq] at hcond
    obtain ⟨⟨hlen, hhead⟩, hlast⟩ := hcond
    obtain ⟨m, rfl⟩ : ∃ m, cs = '`' :: (m ++ ['`']) := by
      cases cs with
      | nil => simp at hhead
      | cons c rest =>
        have hrest : rest ≠ [] := by
          rintro rfl
          simp at hlen
        simp only [List.head?_cons, Option.some.injEq] at hhead
        rw [List.getLast?_cons, List.getLast?_eq_some_getLast hrest] at hlast
        simp only [Option.getD_some, Option.some.injEq] at hlast
        refine ⟨rest.dropLast, ?_⟩
        rw [hhead, ← hlast, List.dropLast_append_getLast hrest]
    have hstar : m ++ ['`'] = ['*', '`'] ↔ m = ['*'] := by
      rw [show ['*', '`'] = ['*'] ++ ['`'] from rfl, List.append_left_inj]
    simp [String.ext_iff, hstar]
  · -- otherwise the name stays as it is, and it is no name in backticks
    rename_i hcond
    simp only [List.mem_cons, List.not_mem_nil, or_false]
    constructor
    · rintro (h | h) <;> simp [h]
    · rintro (h | h | h | h)
      · exact .inl h
      · exact .inr h
      all_goals
        -- a name in backticks would have been stripped
        simp only [String.ext_iff, String.toList_ofList] at h
        simp [h] at hcond

/-- Outside a quoted `*` and a quoted empty name, a column counts every row exactly when its
normal form is `*` or empty. -/
theorem countsAll_iff {column : String} (h₁ : Text.trim column ≠ "``")
    (h₂ : Text.trim column ≠ "`*`") :
    ((Text.trim column).isEmpty || Text.trim column == "*") = true ↔
      (normalize column = "" ∨ normalize column = "*") := by
  rw [normalize_star_or_empty]
  simp [h₁, h₂]

theorem quote_congr {a a' : String} (h : normalize a = normalize a') : quote a = quote a' := by
  unfold quote
  rw [h]

theorem quoteColumn_congr {a a' : String} (h : normalize a = normalize a') :
    quoteColumn a = quoteColumn a' := by
  unfold quoteColumn
  rw [h]

end Name

namespace Statements

variable {clock : Stamp}

theorem quoted_congr {a a' : String} (h : Name.normalize a = Name.normalize a') :
    quoted a = quoted a' := by
  unfold quoted
  rw [Name.quote_congr h]

theorem describe_congr {a a' : String} (h : Name.normalize a = Name.normalize a') :
    describe a = describe a' := by
  unfold describe
  rw [quoted_congr h]

theorem columnNames_congr {a a' : String} (h : Name.normalize a = Name.normalize a') :
    columnNames a = columnNames a' := by
  unfold columnNames
  rw [describe_congr h]

theorem trigger_congr {name name' : String} {database database' : Option String}
    (hn : Name.normalize name = Name.normalize name')
    (hd : database.map Name.normalize = database'.map Name.normalize) :
    trigger name database = trigger name' database' := by
  cases database <;> cases database' <;> simp only [Option.map_none, Option.map_some,
    reduceCtorEq, Option.some.injEq] at hd
  · unfold trigger
    rw [quoted_congr hn]
  · unfold trigger
    simp only [quoted_congr hn, quoted_congr hd]

theorem rows_congr {table table' : String} (h : Name.normalize table = Name.normalize table')
    (columns : Projection) (filter : RowFilter) (asRecords : Bool) :
    rows clock table columns filter asRecords = rows clock table' columns filter asRecords := by
  unfold rows
  rw [quoted_congr h]

theorem size_congr {table table' column column' : String}
    (ht : Name.normalize table = Name.normalize table')
    (hc : Name.normalize column = Name.normalize column')
    (hall : ((Text.trim column).isEmpty || Text.trim column == "*") =
      ((Text.trim column').isEmpty || Text.trim column' == "*")) (filter : RowFilter) :
    size clock table column filter = size clock table' column' filter := by
  have hq : Name.quoteColumn (Text.trim column) = Name.quoteColumn (Text.trim column') :=
    Name.quoteColumn_congr (by rw [Name.normalize_trim, Name.normalize_trim, hc])
  unfold size
  simp only [quoted_congr ht, hall, hq]

end Statements

/-! ## Equal keys, equal reads -/

namespace Operation

theorem digest_keyFields_rows (table : String) (columns : Projection) (filter : RowFilter)
    (asRecords : Bool) (ttl : Option Int) :
    (rows table columns filter asRecords ttl).keyFields.digest =
      some (Json.fingerprint (.object [("beautify", .bool asRecords), ("column", columns.toJson),
        ("table", .string (Name.normalize table)), ("where", filter.toJson)])) := by
  rw [KeyFields.digest_eq_some] <;> simp [keyFields, KeyFields.rows_fields]

theorem digest_keyFields_size (table column : String) (filter : RowFilter) (ttl : Option Int) :
    (size table column filter ttl).keyFields.digest =
      some (Json.fingerprint (.object [("column", .string (Name.normalize column)),
        ("table", .string (Name.normalize table)), ("where", filter.toJson)])) := by
  rw [KeyFields.digest_eq_some] <;> simp [keyFields, KeyFields.count_fields]

/-- Two reads of one binding whose keys render alike have one plan: the same payload, the same
query to the database and the same use of the value.  This holds when neither read uses a
spelling its key loses (`KeyFaithful`) and their parameters do not share a digest without
being equal. -/
theorem plan_eq_of_render_eq {b : Binding} {r₁ r₂ : Operation} {k₁ k₂ : CacheKey}
    (h₁ : r₁.readKey b = some k₁) (h₂ : r₂.readKey b = some k₂) (hkey : k₁.render = k₂.render)
    (hdigest : r₁.keyFields.digest = r₂.keyFields.digest → r₁.keyFields = r₂.keyFields)
    (hr₁ : r₁.KeyFaithful) (hr₂ : r₂.KeyFaithful) (clock : Stamp) :
    r₁.plan? clock = r₂.plan? clock := by
  have hpath := CacheKey.path_eq_of_render_eq (readKey_holds h₁) (readKey_holds h₂) hkey
  cases r₁ <;> cases r₂ <;> simp only [readKey, reduceCtorEq, Option.some.injEq] at h₁ h₂ <;>
    subst h₁ h₂ <;> simp at hpath
  -- the fixed words of two keys differ unless the reads are of one kind
  case serverVersion.serverVersion => rfl
  case tableNames.tableNames => rfl
  case triggers.triggers => rfl
  case columnNames.columnNames =>
    simp only [plan?, Statements.columnNames_congr (String.ext hpath)]
  case describe.describe =>
    simp only [plan?, Statements.describe_congr (String.ext hpath)]
  case trigger.trigger =>
    obtain ⟨hname, htail⟩ := (append_sep_inj hr₁ hr₂ (CacheKey.sep_hashTail _)
      (CacheKey.sep_hashTail _)).1 hpath
    have hfields := hdigest (hashTail_inj htail)
    simp only [plan?,
      Statements.trigger_congr (String.ext hname) (Binding.databaseFields_congr hfields)]
  case triggerNames.triggerNames database₁ _ database₂ _ =>
    have hdb := Binding.databaseFields_congr (hdigest (hashTail_inj hpath))
    -- the statement binds the database name as written; the key keeps it when it is normal
    have hsame : database₁ = database₂ := by
      cases database₁ <;> cases database₂ <;>
        simp only [Option.map_none, Option.map_some, reduceCtorEq, Option.some.injEq] at hdb ⊢
      simp only [KeyFaithful] at hr₁ hr₂
      rw [← hr₁, ← hr₂, hdb]
    subst hsame
    rfl
  case rows.rows =>
    obtain ⟨htable, hfp⟩ := append_colon_inj (Json.colon_not_mem_fingerprint _)
      (Json.colon_not_mem_fingerprint _) hpath
    have hfields := congrArg KeyFields.fields
      (hdigest (by rw [digest_keyFields_rows, digest_keyFields_rows, String.ext hfp]))
    simp only [keyFields, KeyFields.rows_fields, List.cons.injEq, Prod.mk.injEq, Json.bool.injEq,
      true_and, and_true] at hfields
    obtain ⟨rfl, hcolumns, -, hfilter⟩ := hfields
    simp only [plan?, Statements.rows_congr (String.ext htable),
      Projection.toJson_inj hcolumns, RowFilter.toJson_inj hfilter]
  case size.size _ column₁ _ _ _ column₂ _ _ =>
    obtain ⟨htable, hfp⟩ := append_colon_inj (Json.colon_not_mem_fingerprint _)
      (Json.colon_not_mem_fingerprint _) hpath
    have hfields := congrArg KeyFields.fields
      (hdigest (by rw [digest_keyFields_size, digest_keyFields_size, String.ext hfp]))
    simp only [keyFields, KeyFields.count_fields, List.cons.injEq, Prod.mk.injEq,
      Json.string.injEq, true_and, and_true] at hfields
    obtain ⟨hcolumn, -, hfilter⟩ := hfields
    -- both count every row, or both count the same quoted column
    simp only [KeyFaithful] at hr₁ hr₂
    have hall : ((Text.trim column₁).isEmpty || Text.trim column₁ == "*") =
        ((Text.trim column₂).isEmpty || Text.trim column₂ == "*") := by
      rw [Bool.eq_iff_iff, Name.countsAll_iff hr₁.1 hr₁.2, Name.countsAll_iff hr₂.1 hr₂.2,
        hcolumn]
    simp only [plan?,
      Statements.size_congr (String.ext htable) hcolumn hall, RowFilter.toJson_inj hfilter]

/-- Two reads of one binding whose keys render alike are one conversation with the database,
and so give the same answer on every database: the same rows, count or names, or the same
failure.  This holds when neither read uses a spelling its key loses (`KeyFaithful`) and their
parameters do not share a digest without being equal. -/
theorem uncached_reads_agree_of_key_eq {b : Binding} {r₁ r₂ : Operation} {k₁ k₂ : CacheKey}
    (h₁ : r₁.readKey b = some k₁) (h₂ : r₂.readKey b = some k₂) (hkey : k₁.render = k₂.render)
    (hdigest : r₁.keyFields.digest = r₂.keyFields.digest → r₁.keyFields = r₂.keyFields)
    (hr₁ : r₁.KeyFaithful) (hr₂ : r₂.KeyFaithful) (clock : Stamp) :
    Front.perform clock none r₁ = Front.perform clock none r₂ := by
  obtain ⟨p, hp₁⟩ := plan_of_readKey h₁ clock
  have hp₂ : r₂.plan? clock = some p := (plan_eq_of_render_eq h₁ h₂ hkey hdigest hr₁ hr₂ clock) ▸ hp₁
  rw [perform_none_of_plan hp₁, perform_none_of_plan hp₂]

/-- A count of ` users ` by the column `id` in backticks and one of `users` in backticks by the
plain column `id` share their key, and the two reads are one conversation with the database. -/
theorem counts_agree_across_spellings :
    let b : Binding := ⟨⟨"sql", "shop"⟩, {}, false⟩
    (b.sizeKey " users " "`id`" (.clause "a = 1")).render =
        (b.sizeKey "`users`" "id" (.clause "a = 1")).render ∧
      Front.perform ⟨2024, 1, 2, 3, 4, 5, 0⟩ none (.size " users " "`id`" (.clause "a = 1") none) =
        Front.perform ⟨2024, 1, 2, 3, 4, 5, 0⟩ none
          (.size "`users`" "id" (.clause "a = 1") (some 5)) := by
  intro b
  have ht : Name.normalize " users " = Name.normalize "`users`" := by decide
  have hc : Name.normalize "`id`" = Name.normalize "id" := by decide
  have hkey : (b.sizeKey " users " "`id`" (.clause "a = 1")).render =
      (b.sizeKey "`users`" "id" (.clause "a = 1")).render := by
    simp only [Binding.sizeKey, ht, hc]
  have hfields : (size " users " "`id`" (.clause "a = 1") none).keyFields =
      (size "`users`" "id" (.clause "a = 1") (some 5)).keyFields := by
    simp only [keyFields, ht, hc]
  exact ⟨hkey, uncached_reads_agree_of_key_eq rfl rfl hkey (fun _ => hfields)
    (by simp only [KeyFaithful]; decide) (by simp only [KeyFaithful]; decide) _⟩

/-- A count of `users` by the column `*` and one by `*` in backticks share their key, yet on a
database with no rows the first counts none and the second is refused: the key reads both
columns as `*`, while the statement quotes the second one and refuses the name `*`. -/
theorem quoted_star_count_shares_key :
    let b : Binding := ⟨⟨"sql", "shop"⟩, {}, false⟩
    let clock : Stamp := ⟨2024, 1, 2, 3, 4, 5, 0⟩
    (b.sizeKey "users" "*" .none).render = (b.sizeKey "users" "`*`" .none).render ∧
      (Stage.run (Front.perform clock none (.size "users" "*" .none none)).run {}).1 =
        .ok (.count 0) ∧
      (Stage.run (Front.perform clock none (.size "users" "`*`" .none none)).run {}).1 =
        .error (.rejected (.injection "*" .symbol)) := by
  intro b clock
  have hc : Name.normalize "*" = Name.normalize "`*`" := by decide
  refine ⟨by simp only [Binding.sizeKey, hc], ?_⟩
  decide +kernel

end Operation

end QueryShield
