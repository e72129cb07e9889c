import Mathlib
import QueryShield.Cache.Binding

/-!
# Invalidation patterns cover exactly the keys of their resource

A write deletes the store keys that match its glob patterns.  The keys are rendered by one
function (`CacheKey.render`) and the patterns by others (`KeySpace.tablePatterns`,
`KeySpace.triggerPatterns`), so they agree only through the semantics of `Glob.accepts`.
`Binding.patterns_cover_exactly` states the agreement for every binding:

* every key of a read about a table (its rows, row counts, column names and description)
  matches a pattern of the table, whichever spelling of the table the read and the write use,
  as long as both name the same table once normalized; likewise every key of a trigger read
  and of the trigger listings matches a pattern of the trigger;
* for names without `:` (such as the names of `[A-Za-z0-9_$]` that quoting accepts), the
  patterns of a table match no key of another table, of the table list, of the version or of
  a trigger, and the patterns of a trigger match no key of another trigger and no table key.

The proof goes in three layers.  An escaped literal followed by a suffix pattern accepts
exactly the texts that start with the literal (`Glob.beforeStar_escaped`).  So the two patterns
`KeySpace.covering` writes for a base accept exactly the keys whose path (the text after the
key space) is the base or the base followed by `:` and more (`KeySpace.matchedBy_covering`).
Last, a path extends a base only if the two agree word by word up to the base's end, which
`append_sep_inj` decides for names without `:`.
-/

namespace QueryShield

namespace Glob

/-- What `escape` writes for one character. -/
def escapeChar (c : Char) : List Char := if isSpecial c then ['\\', c] else [c]

theorem escape_toList (s : String) : (escape s).toList = s.toList.flatMap escapeChar := by
  simp only [escape, String.toList_ofList]
  rfl

theorem escape_append (a b : String) : escape (a ++ b) = escape a ++ escape b := by
  apply String.ext
  simp [escape_toList]

/-- A character's escape is one item, and no star: a special character is preceded by a
backslash, any other stands for itself. -/
theorem take_escapeChar (c d : Char) (p : List Char) :
    take (escapeChar c ++ p) d = if c = d then some p else none := by
  by_cases hc : isSpecial c = true
  · simp [escapeChar, hc, take]
  · obtain ⟨⟨⟨⟨h1, h2⟩, h3⟩, -⟩, h5⟩ :
        (((c ≠ '*' ∧ c ≠ '?') ∧ c ≠ '[') ∧ c ≠ ']') ∧ c ≠ '\\' := by
      simpa [isSpecial] using hc
    simp only [escapeChar, hc, Bool.false_eq_true, ↓reduceIte, List.singleton_append, take]
    split <;> simp_all

theorem escapeChar_eq_cons (c : Char) : ∃ e es, escapeChar c = e :: es ∧ e ≠ '*' := by
  by_cases hc : isSpecial c = true
  · exact ⟨'\\', [c], by simp [escapeChar, hc], by decide⟩
  · exact ⟨c, [], by simp [escapeChar, hc], by rintro rfl; simp [isSpecial] at hc⟩

/-- Before any star, a pattern item either takes the next character or the match fails. -/
theorem beforeStar_cons_cons {e d : Char} (he : e ≠ '*') (rest t : List Char) :
    beforeStar (e :: rest) (d :: t) = (take (e :: rest) d).elim false (beforeStar · t) := by
  simp only [beforeStar]
  split
  · simp_all
  · split <;> simp_all

/-- An escaped literal followed by a pattern `p` accepts exactly the texts that start with the
literal and go on with a text `p` accepts. -/
theorem beforeStar_escaped (s p t : List Char) :
    beforeStar (s.flatMap escapeChar ++ p) t = true ↔ ∃ u, t = s ++ u ∧ beforeStar p u = true := by
  induction s generalizing t with
  | nil => simp
  | cons c s ih =>
    obtain ⟨e, es, he, hstar⟩ := escapeChar_eq_cons c
    have hpat : (c :: s).flatMap escapeChar ++ p = e :: (es ++ (s.flatMap escapeChar ++ p)) := by
      simp [he]
    rw [hpat]
    cases t with
    | nil => simp [beforeStar, hstar]
    | cons d t =>
      have htake := take_escapeChar c d (s.flatMap escapeChar ++ p)
      rw [he, List.cons_append] at htake
      rw [beforeStar_cons_cons hstar, htake]
      by_cases hcd : c = d
      · subst hcd
        simp [ih]
      · simp [hcd, Ne.symm hcd]

/-- A star with nothing after it takes the rest of the text. -/
theorem afterStar_nil_self (m : List Char) : afterStar [] m [] m (Nat.le_refl _) = true := by
  induction m with
  | nil => simp [afterStar]
  | cons c m ih =>
    unfold afterStar
    simp [take, ih]

theorem beforeStar_star (t : List Char) : beforeStar ['*'] t = true := by
  cases t with
  | nil => rfl
  | cons c t => simp [beforeStar, afterStar_nil_self]

theorem beforeStar_nil_iff (t : List Char) : beforeStar [] t = true ↔ t = [] := by
  cases t <;> simp [beforeStar, take]

theorem beforeStar_colon_star_iff (t : List Char) :
    beforeStar [':', '*'] t = true ↔ ∃ u, t = ':' :: u := by
  cases t with
  | nil => simp [beforeStar]
  | cons c t =>
    by_cases h : c = ':'
    · subst h
      simp [beforeStar, take, beforeStar_star]
    · simp [beforeStar, take, h, Ne.symm h]

/-- An escaped literal followed by a suffix pattern accepts exactly the texts that start with
the literal and go on with what the suffix accepts. -/
theorem accepts_escape_append (lit sfx text : String) :
    accepts (escape lit ++ sfx) text = true ↔
      ∃ u, text.toList = lit.toList ++ u ∧ beforeStar sfx.toList u = true := by
  rw [accepts, String.toList_append, escape_toList, beforeStar_escaped]

end Glob

/-- A text that is empty or starts at a `:` separator: what may follow a complete word. -/
def Sep (u : List Char) : Prop := u = [] ∨ ∃ v, u = ':' :: v

/-- Two texts without `:`, each followed by nothing or by a separator, are equal when their
concatenations are: a word cannot run past the separator that ends the other. -/
theorem append_sep_inj {a b x y : List Char} (ha : ':' ∉ a) (hb : ':' ∉ b) (hx : Sep x)
    (hy : Sep y) : a ++ x = b ++ y ↔ a = b ∧ x = y := by
  refine ⟨fun h => ?_, fun ⟨rfl, rfl⟩ => rfl⟩
  induction a generalizing b with
  | nil =>
    cases b with
    | nil => exact ⟨rfl, h⟩
    | cons d b =>
      -- `x` would start with `d`, a letter of `b`, yet `x` starts at a separator
      rcases hx with rfl | ⟨v, rfl⟩
      · simp at h
      · simp only [List.nil_append, List.cons_append, List.cons.injEq] at h
        exact absurd (h.1 ▸ List.mem_cons_self) hb
  | cons c a ih =>
    cases b with
    | nil =>
      rcases hy with rfl | ⟨v, rfl⟩
      · simp at h
      · simp only [List.nil_append, List.cons_append, List.cons.injEq] at h
        exact absurd (h.1 ▸ List.mem_cons_self) ha
    | cons d b =>
      simp only [List.cons_append, List.cons.injEq] at h
      obtain ⟨rfl, h⟩ := h
      obtain ⟨rfl, rfl⟩ := ih (fun h' => ha (List.mem_cons_of_mem _ h'))
        (fun h' => hb (List.mem_cons_of_mem _ h')) h
      exact ⟨rfl, rfl⟩

namespace CacheKey

/-- The text after the key space: family, name and, when the read has parameters, `:` and
their digest. -/
def path (k : CacheKey) : List Char :=
  (k.category.name ++ ":" ++ k.name).toList ++ k.paramHash.elim [] fun h => ':' :: h.toList

theorem render_toList (k : CacheKey) :
    k.render.toList = (k.nameSpace ++ ":" ++ k.storeLabel ++ ":").toList ++ k.path := by
  cases h : k.paramHash <;> simp [render, path, h]

/-- The key's path is the literal, or the literal followed by `:` and more. -/
def Extends (k : CacheKey) (lit : String) : Prop := ∃ u, k.path = lit.toList ++ u ∧ Sep u

/-- Some pattern of the list accepts the key. -/
def MatchedBy (k : CacheKey) (patterns : List String) : Prop :=
  ∃ p ∈ patterns, Glob.accepts p k.render = true

theorem matchedBy_append {k : CacheKey} {ps qs : List String} :
    k.MatchedBy (ps ++ qs) ↔ k.MatchedBy ps ∨ k.MatchedBy qs := by
  simp only [MatchedBy, List.mem_append]
  constructor
  · rintro ⟨p, hp | hp, hacc⟩
    · exact .inl ⟨p, hp, hacc⟩
    · exact .inr ⟨p, hp, hacc⟩
  · rintro (⟨p, hp, hacc⟩ | ⟨p, hp, hacc⟩)
    · exact ⟨p, .inl hp, hacc⟩
    · exact ⟨p, .inr hp, hacc⟩

/-- The digest part of a path is nothing or starts at a separator. -/
theorem sep_hashTail (h : Option String) : Sep (h.elim [] fun h => ':' :: h.toList) := by
  cases h with
  | none => exact .inl rfl
  | some h => exact .inr ⟨h.toList, rfl⟩

end CacheKey

namespace KeySpace

/-- The text every key of the space starts with. -/
def keyPrefix (s : KeySpace) : String := s.nameSpace ++ ":" ++ s.storeLabel ++ ":"

theorem patternPrefix_eq (s : KeySpace) : s.patternPrefix = Glob.escape s.keyPrefix := by
  simp only [patternPrefix, keyPrefix, Glob.escape_append]
  rfl

/-- Whether a key lies in the space. -/
def Holds (s : KeySpace) (k : CacheKey) : Prop :=
  k.nameSpace = s.nameSpace ∧ k.storeLabel = s.storeLabel

/-- The two patterns covering a literal base accept exactly the keys of the space whose path
is the base, or the base followed by `:` and more. -/
theorem matchedBy_covering {s : KeySpace} {k : CacheKey} (hk : s.Holds k) (lit : String) :
    k.MatchedBy (s.covering (Glob.escape lit)) ↔ k.Extends lit := by
  have hpre : ∀ sfx, s.patternPrefix ++ Glob.escape lit ++ sfx =
      Glob.escape (s.keyPrefix ++ lit) ++ sfx := by
    intro sfx
    rw [patternPrefix_eq, Glob.escape_append]
  have hrender : k.render.toList = s.keyPrefix.toList ++ k.path := by
    rw [CacheKey.render_toList, hk.1, hk.2]
    rfl
  have hone : Glob.accepts (s.patternPrefix ++ Glob.escape lit) k.render = true ↔
      k.path = lit.toList := by
    rw [← String.append_empty (s := s.patternPrefix ++ _), hpre, Glob.accepts_escape_append,
      hrender]
    simp [Glob.beforeStar_nil_iff]
  have htwo : Glob.accepts (s.patternPrefix ++ Glob.escape lit ++ ":*") k.render = true ↔
      ∃ v, k.path = lit.toList ++ ':' :: v := by
    rw [hpre, Glob.accepts_escape_append, hrender]
    simp [Glob.beforeStar_colon_star_iff]
  simp only [CacheKey.MatchedBy, covering, List.mem_cons, List.not_mem_nil, or_false,
    exists_eq_or_imp, exists_eq_left, hone, htwo, CacheKey.Extends, Sep]
  constructor
  · rintro (h | ⟨v, h⟩)
    · exact ⟨[], by simpa using h, .inl rfl⟩
    · exact ⟨':' :: v, h, .inr ⟨v, rfl⟩⟩
  · rintro ⟨u, h, rfl | ⟨v, rfl⟩⟩
    · exact .inl (by simpa using h)
    · exact .inr ⟨v, h⟩

/-- The patterns of a table: the four bases of its data, counts, columns and description. -/
theorem matchedBy_tablePatterns {s : KeySpace} {k : CacheKey} (hk : s.Holds k) (table : String) :
    k.MatchedBy (s.tablePatterns table) ↔
      k.Extends ("data:" ++ Name.normalize table) ∨ k.Extends ("count:" ++ Name.normalize table) ∨
        k.Extends ("schema:columns:" ++ Name.normalize table) ∨
        k.Extends ("schema:describe:" ++ Name.normalize table) := by
  have hbase : ∀ w, Glob.escape w = w → w ++ Glob.escape (Name.normalize table) =
      Glob.escape (w ++ Name.normalize table) := by
    intro w hw
    rw [Glob.escape_append, hw]
  simp only [tablePatterns, List.flatMap_cons, List.flatMap_nil, List.append_nil,
    CacheKey.matchedBy_append, hbase "data:" (by decide), hbase "count:" (by decide),
    hbase "schema:columns:" (by decide), hbase "schema:describe:" (by decide),
    matchedBy_covering hk]

/-- The patterns of one trigger: its own base and the two trigger listings. -/
theorem matchedBy_triggerPatterns {s : KeySpace} {k : CacheKey} (hk : s.Holds k) (name : String) :
    k.MatchedBy (s.triggerPatterns (some name)) ↔
      k.Extends ("schema:trigger:" ++ Name.normalize name) ∨ k.Extends "schema:triggers" ∨
        k.Extends "schema:trigger_names" := by
  have hown : "schema:trigger:" ++ Glob.escape (Name.normalize name) =
      Glob.escape ("schema:trigger:" ++ Name.normalize name) := by
    rw [Glob.escape_append]
    rfl
  have hlist : ∀ w, Glob.escape w = w → s.covering w = s.covering (Glob.escape w) := by
    intro w hw
    rw [hw]
  simp only [triggerPatterns, CacheKey.matchedBy_append, hown,
    hlist "schema:triggers" (by decide), hlist "schema:trigger_names" (by decide),
    matchedBy_covering hk, or_assoc]

theorem path_keyWith (s : KeySpace) (c : Category) (n : String) (f : KeyFields) :
    (s.keyWith c n f).path =
      (c.name ++ ":" ++ n).toList ++ f.digest.elim [] fun h => ':' :: h.toList := rfl

theorem path_key (s : KeySpace) (c : Category) (n : String) :
    (s.key c n).path = (c.name ++ ":" ++ n).toList := by
  simp [key, CacheKey.path]

/-- A key with parameters extends the text of its family and name. -/
theorem extends_keyWith {s : KeySpace} {c : Category} {n : String} {f : KeyFields} {lit : String}
    (h : (c.name ++ ":" ++ n).toList = lit.toList) : (s.keyWith c n f).Extends lit :=
  ⟨_, by rw [path_keyWith, h], CacheKey.sep_hashTail _⟩

/-- A key without parameters extends the text of its family and name. -/
theorem extends_key {s : KeySpace} {c : Category} {n : String} {lit : String}
    (h : (c.name ++ ":" ++ n).toList = lit.toList) : (s.key c n).Extends lit :=
  ⟨[], by rw [path_key, h, List.append_nil], .inl rfl⟩

end KeySpace

namespace Binding

/-- The keys of the reads about a table: its rows (any projection, filter and record flag), its
row counts (any counted column and filter), its column names and its description. -/
def TableKey (b : Binding) (table : String) (k : CacheKey) : Prop :=
  (∃ columns filter asRecords, k = b.rowsKey table columns filter asRecords) ∨
    (∃ column filter, k = b.sizeKey table column filter) ∨
    k = b.columnNamesKey table ∨ k = b.describeKey table

/-- The keys of the reads of one trigger's creation text, in a named database or the current
one. -/
def TriggerKey (b : Binding) (name : String) (k : CacheKey) : Prop :=
  ∃ database, k = b.triggerKey name database

/-- The keys of the trigger listings: every trigger with its statement, and the trigger names
of a named database or the current one. -/
def TriggerListKey (b : Binding) (k : CacheKey) : Prop :=
  k = b.triggersKey ∨ ∃ database, k = b.triggerNamesKey database

variable {b : Binding}

/-- Every key of a read about a table matches a pattern of that table, however the read and
the write spell the table's name. -/
theorem tableKey_matched {table table' : String} {k : CacheKey}
    (hsame : Name.normalize table' = Name.normalize table) (hk : b.TableKey table k) :
    k.MatchedBy (b.space.tablePatterns table') := by
  rcases hk with ⟨columns, filter, asRecords, rfl⟩ | ⟨column, filter, rfl⟩ | rfl | rfl
  · refine (KeySpace.matchedBy_tablePatterns ⟨rfl, rfl⟩ table').2 (.inl ?_)
    exact KeySpace.extends_keyWith (by simp [Category.name, hsame])
  · refine (KeySpace.matchedBy_tablePatterns ⟨rfl, rfl⟩ table').2 (.inr (.inl ?_))
    exact KeySpace.extends_keyWith (by simp [Category.name, hsame])
  · refine (KeySpace.matchedBy_tablePatterns ⟨rfl, rfl⟩ table').2 (.inr (.inr (.inl ?_)))
    exact KeySpace.extends_key (by simp [Category.name, hsame])
  · refine (KeySpace.matchedBy_tablePatterns ⟨rfl, rfl⟩ table').2 (.inr (.inr (.inr ?_)))
    exact KeySpace.extends_key (by simp [Category.name, hsame])

/-- Every key of a read of a trigger, and every key of the trigger listings, matches a pattern
of that trigger. -/
theorem triggerKey_matched {name name' : String} {k : CacheKey}
    (hsame : Name.normalize name' = Name.normalize name)
    (hk : b.TriggerKey name k ∨ b.TriggerListKey k) :
    k.MatchedBy (b.space.triggerPatterns (some name')) := by
  rcases hk with ⟨database, rfl⟩ | rfl | ⟨database, rfl⟩
  · refine (KeySpace.matchedBy_triggerPatterns ⟨rfl, rfl⟩ name').2 (.inl ?_)
    exact KeySpace.extends_keyWith (by simp [Category.name, hsame])
  · refine (KeySpace.matchedBy_triggerPatterns ⟨rfl, rfl⟩ name').2 (.inr (.inl ?_))
    exact KeySpace.extends_key (by simp [Category.name])
  · refine (KeySpace.matchedBy_triggerPatterns ⟨rfl, rfl⟩ name').2 (.inr (.inr ?_))
    exact KeySpace.extends_keyWith (by simp [Category.name])

/-- For names without `:`, the patterns of a table match no key of another table, of the table
list, of the version, of a trigger or of the trigger listings. -/
theorem tablePatterns_precise {table table' : String} {k : CacheKey}
    (hname : ':' ∉ (Name.normalize table).toList) (hname' : ':' ∉ (Name.normalize table').toList)
    (hne : Name.normalize table' ≠ Name.normalize table)
    (hk : b.TableKey table k ∨ k = b.tableNamesKey ∨ k = b.versionKey ∨
      (∃ name, b.TriggerKey name k) ∨ b.TriggerListKey k) :
    ¬ k.MatchedBy (b.space.tablePatterns table') := by
  have hdiff : ∀ {x y : List Char}, Sep x → Sep y →
      (Name.normalize table).toList ++ x ≠ (Name.normalize table').toList ++ y :=
    fun hx hy h => hne (String.ext ((append_sep_inj hname hname' hx hy).1 h).1).symm
  rcases hk with (⟨columns, filter, asRecords, rfl⟩ | ⟨column, filter, rfl⟩ | rfl | rfl) | rfl |
    rfl | ⟨name, database, rfl⟩ | rfl | ⟨database, rfl⟩ <;>
  rw [KeySpace.matchedBy_tablePatterns ⟨rfl, rfl⟩] <;>
  rintro (⟨u, hu, hsep⟩ | ⟨u, hu, hsep⟩ | ⟨u, hu, hsep⟩ | ⟨u, hu, hsep⟩) <;>
  simp [rowsKey, sizeKey, columnNamesKey, describeKey, tableNamesKey, versionKey, triggerKey,
    triggersKey, triggerNamesKey, KeySpace.path_keyWith, KeySpace.path_key, Category.name] at hu
  -- the fixed words of key and pattern settle every pair but the four where the key's family
  -- is the pattern's (rows, counts, columns, description): there the two names must agree
  · exact hdiff (CacheKey.sep_hashTail _) hsep hu
  · exact hdiff (CacheKey.sep_hashTail _) hsep hu
  · exact hdiff (.inl rfl) hsep (by simpa using hu)
  · exact hdiff (.inl rfl) hsep (by simpa using hu)

/-- For names without `:`, the patterns of a trigger match no key of another trigger and no
key of a read about a table. -/
theorem triggerPatterns_precise {name name' : String} {k : CacheKey}
    (hname : ':' ∉ (Name.normalize name).toList) (hname' : ':' ∉ (Name.normalize name').toList)
    (hne : Name.normalize name' ≠ Name.normalize name)
    (hk : b.TriggerKey name k ∨ ∃ table, b.TableKey table k) :
    ¬ k.MatchedBy (b.space.triggerPatterns (some name')) := by
  rcases hk with ⟨database, rfl⟩ | ⟨table, ⟨columns, filter, asRecords, rfl⟩ |
    ⟨column, filter, rfl⟩ | rfl | rfl⟩ <;>
  rw [KeySpace.matchedBy_triggerPatterns ⟨rfl, rfl⟩] <;>
  rintro (⟨u, hu, hsep⟩ | ⟨u, hu, hsep⟩ | ⟨u, hu, hsep⟩) <;>
  simp [rowsKey, sizeKey, columnNamesKey, describeKey, triggerKey, KeySpace.path_keyWith,
    KeySpace.path_key, Category.name] at hu
  -- only a trigger key against the pattern of its own base is left: the names must agree
  exact hne (String.ext ((append_sep_inj hname hname' (CacheKey.sep_hashTail _) hsep).1 hu).1).symm

/-- The invalidation patterns of a table or a trigger cover exactly the keys of the reads
about it.  Every key of a read about a table matches a pattern of the table, and every key of a
read of a trigger or of the trigger listings a pattern of the trigger, whichever spelling of
the name each side uses as long as both normalize alike.  For names without `:` (which
includes every name of `[A-Za-z0-9_$]`), the patterns of a table match no key of another table,
of the table list, of the version or of a trigger, and the patterns of a trigger match no key
of another trigger and no key of a table. -/
theorem patterns_cover_exactly (b : Binding) :
    (∀ table table' k, Name.normalize table' = Name.normalize table → b.TableKey table k →
      k.MatchedBy (b.space.tablePatterns table')) ∧
    (∀ name name' k, Name.normalize name' = Name.normalize name →
      b.TriggerKey name k ∨ b.TriggerListKey k →
      k.MatchedBy (b.space.triggerPatterns (some name'))) ∧
    (∀ table table' k, ':' ∉ (Name.normalize table).toList →
      ':' ∉ (Name.normalize table').toList → Name.normalize table' ≠ Name.normalize table →
      b.TableKey table k ∨ k = b.tableNamesKey ∨ k = b.versionKey ∨
        (∃ name, b.TriggerKey name k) ∨ b.TriggerListKey k →
      ¬ k.MatchedBy (b.space.tablePatterns table')) ∧
    (∀ name name' k, ':' ∉ (Name.normalize name).toList →
      ':' ∉ (Name.normalize name').toList → Name.normalize name' ≠ Name.normalize name →
      b.TriggerKey name k ∨ (∃ table, b.TableKey table k) →
      ¬ k.MatchedBy (b.space.triggerPatterns (some name'))) :=
  ⟨fun _ _ _ => tableKey_matched, fun _ _ _ => triggerKey_matched,
    fun _ _ _ => tablePatterns_precise, fun _ _ _ => triggerPatterns_precise⟩

/-- A write of the table `users` spelled in backticks clears a row read of ` users ` and leaves
one of `users_archive`; a write of trigger `audit` clears its key in database `shop` and leaves
the key of `audit2`. -/
theorem patterns_cover_users_and_audit :
    (Binding.rowsKey ⟨⟨"sql", "shop"⟩, {}, false⟩ " users " .all .none false).MatchedBy
        (KeySpace.tablePatterns ⟨"sql", "shop"⟩ "`users`") ∧
      ¬ (Binding.rowsKey ⟨⟨"sql", "shop"⟩, {}, false⟩ "users_archive" .all .none false).MatchedBy
        (KeySpace.tablePatterns ⟨"sql", "shop"⟩ "users") ∧
      (Binding.triggerKey ⟨⟨"sql", "shop"⟩, {}, false⟩ "audit" (some "shop")).MatchedBy
        (KeySpace.triggerPatterns ⟨"sql", "shop"⟩ (some "audit")) ∧
      ¬ (Binding.triggerKey ⟨⟨"sql", "shop"⟩, {}, false⟩ "audit2" none).MatchedBy
        (KeySpace.triggerPatterns ⟨"sql", "shop"⟩ (some "audit")) :=
  let b : Binding := ⟨⟨"sql", "shop"⟩, {}, false⟩
  ⟨(patterns_cover_exactly b).1 _ _ _ (by decide) (.inl ⟨_, _, _, rfl⟩),
    (patterns_cover_exactly b).2.2.1 _ _ _ (by decide) (by decide) (by decide)
      (.inl (.inl ⟨_, _, _, rfl⟩)),
    (patterns_cover_exactly b).2.1 _ _ _ rfl (.inl ⟨_, rfl⟩),
    (patterns_cover_exactly b).2.2.2 _ _ _ (by decide) (by decide) (by decide) (.inl ⟨_, rfl⟩)⟩

end Binding

end QueryShield
