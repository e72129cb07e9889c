import QueryShield.Cache.Glob

/-!
# An expiring map

A map from keys to text values in which an entry may carry a deadline: from that instant
on it no longer counts.  Time is explicit: every operation that looks at liveness takes the
current instant, in whole seconds.  Entries are kept sorted by key, one per key, so the
live keys come out sorted.

Looking a key up drops its entry if that entry has expired; nothing else drops expired
entries.  Removing a key reports whether an entry was there, live or not; removing by pattern
removes the live keys that match and counts them.
-/

namespace QueryShield

/-- A stored value and its deadline, if it has one. -/
structure Entry where
  value : String
  deadline : Option Nat := none
deriving DecidableEq, Repr

namespace Entry

/-- Whether the entry still counts at instant `now`. -/
def isLive (e : Entry) (now : Nat) : Bool :=
  match e.deadline with
  | none => true
  | some d => now < d

end Entry

/-- No entries have sorted keys. -/
theorem ExpiringMap.sorted_nil : (([] : List (String × Entry)).map Prod.fst).Pairwise (· < ·) :=
  List.Pairwise.nil

/-- Entries sorted by key, one per key. -/
@[ext] structure ExpiringMap where
  entries : List (String × Entry) := []
  /-- The keys increase strictly, so a key has one entry at most. -/
  sorted : (entries.map Prod.fst).Pairwise (· < ·) := by exact ExpiringMap.sorted_nil
deriving DecidableEq, Repr

namespace ExpiringMap

/-- The entry list with `(k, e)` in its place, replacing an entry of the same key. -/
def insertEntry (k : String) (e : Entry) : List (String × Entry) → List (String × Entry)
  | [] => [(k, e)]
  | (k', e') :: rest =>
    if k == k' then (k, e) :: rest
    else if k < k' then (k, e) :: (k', e') :: rest
    else (k', e') :: insertEntry k e rest

section Insert

variable {k : String} {e : Entry}

theorem insertEntry_cons (k₀ : String) (e₀ : Entry) (l : List (String × Entry)) :
    insertEntry k e ((k₀, e₀) :: l) =
      if k == k₀ then (k, e) :: l
      else if k < k₀ then (k, e) :: (k₀, e₀) :: l
      else (k₀, e₀) :: insertEntry k e l := rfl

/-- The keys after storing under `k` are `k` and the keys there were. -/
theorem mem_keys_insertEntry (l : List (String × Entry)) (x : String)
    (hx : x ∈ (insertEntry k e l).map Prod.fst) : x = k ∨ x ∈ l.map Prod.fst := by
  induction l with
  | nil => simpa [insertEntry] using hx
  | cons y l ih =>
    obtain ⟨k₀, e₀⟩ := y
    rw [insertEntry_cons] at hx
    by_cases h₀ : k = k₀
    · subst h₀
      simpa using hx
    · by_cases hlt : k < k₀
      · simpa [h₀, hlt] using hx
      · simp only [beq_iff_eq, h₀, hlt, if_false, List.map_cons, List.mem_cons] at hx
        rcases hx with rfl | hx
        · simp
        · rcases ih hx with h | h
          · exact .inl h
          · simp [h]

/-- Storing keeps the keys sorted: the new key goes before the first larger one. -/
theorem pairwise_insertEntry {l : List (String × Entry)} (hs : (l.map Prod.fst).Pairwise (· < ·)) :
    ((insertEntry k e l).map Prod.fst).Pairwise (· < ·) := by
  induction l with
  | nil => simp [insertEntry]
  | cons y l ih =>
    obtain ⟨k₀, e₀⟩ := y
    simp only [List.map_cons, List.pairwise_cons] at hs
    rw [insertEntry_cons]
    by_cases h₀ : k = k₀
    · subst h₀
      simpa using hs
    · by_cases hlt : k < k₀
      · rw [if_neg (by simpa using h₀), if_pos hlt]
        simp only [List.map_cons, List.pairwise_cons, List.mem_cons, forall_eq_or_imp]
        exact ⟨⟨hlt, fun x hx => String.lt_trans hlt (hs.1 x hx)⟩, hs⟩
      · -- the new key is larger than `k₀`, which stays in front
        have hgt : k₀ < k := Std.lt_of_le_of_ne (String.not_lt.1 hlt) (Ne.symm h₀)
        simp only [beq_iff_eq, h₀, hlt, if_false, List.map_cons, List.pairwise_cons]
        refine ⟨fun x hx => ?_, ih hs.2⟩
        rcases mem_keys_insertEntry l x hx with rfl | hx
        · exact hgt
        · exact hs.1 x hx

end Insert

/-- The entries that pass a test; the keys stay sorted. -/
def filter (m : ExpiringMap) (q : String × Entry → Bool) : ExpiringMap :=
  ⟨m.entries.filter q, m.sorted.sublist (List.filter_sublist.map Prod.fst)⟩

@[simp] theorem entries_filter (m : ExpiringMap) (q : String × Entry → Bool) :
    (m.filter q).entries = m.entries.filter q := rfl

/-- Stores a value at instant `now`; with a lifetime of `s` seconds its deadline is
`now + s`. -/
def set (m : ExpiringMap) (k v : String) (lifetime : Option Nat) (now : Nat) : ExpiringMap :=
  ⟨insertEntry k { value := v, deadline := lifetime.map (now + ·) } m.entries,
    pairwise_insertEntry m.sorted⟩

/-- The live value of a key. -/
def get? (m : ExpiringMap) (k : String) (now : Nat) : Option String :=
  match m.entries.lookup k with
  | some e => if e.isLive now then some e.value else none
  | none => none

/-- The map without the entry of `k` if that entry's deadline has passed by `now`. -/
def dropExpired (m : ExpiringMap) (k : String) (now : Nat) : ExpiringMap :=
  m.filter fun (k', e) => k' != k || e.isLive now

/-- Looks a key up at `now`: its live value, and the map without the key's entry if that
entry has expired.  Expired entries are dropped lazily, by the look-ups that meet them. -/
def get (m : ExpiringMap) (k : String) (now : Nat) : Option String × ExpiringMap :=
  (m.get? k now, m.dropExpired k now)

/-- The live keys, sorted. -/
def keys (m : ExpiringMap) (now : Nat) : List String :=
  (m.entries.filter fun (_, e) => e.isLive now).map (·.1)

/-- The number of live keys. -/
def size (m : ExpiringMap) (now : Nat) : Nat := (m.keys now).length

/-- The live keys that match a pattern, sorted. -/
def scan (m : ExpiringMap) (pattern : String) (now : Nat) : List String :=
  (m.keys now).filter (Glob.accepts pattern)

/-- Removes a key; reports whether an entry, live or not, was there. -/
def delete (m : ExpiringMap) (k : String) : ExpiringMap × Bool :=
  (m.filter fun (k', _) => k' != k, m.entries.any fun (k', _) => k' == k)

/-- Removes the live keys that match a pattern; reports how many there were. -/
def deleteMatching (m : ExpiringMap) (pattern : String) (now : Nat) : ExpiringMap × Nat :=
  (m.scan pattern now).foldl (fun (acc, n) k =>
    let (acc', existed) := acc.delete k
    (acc', if existed then n + 1 else n)) (m, 0)

/-- The remaining lifetime of a live key: `some none` when it never expires. -/
def remaining? (m : ExpiringMap) (k : String) (now : Nat) : Option (Option Nat) :=
  match m.entries.lookup k with
  | some e => if e.isLive now then some (e.deadline.map (· - now)) else none
  | none => none

/-- The live keys, each with whether it has a deadline. -/
def keysWithExpiry (m : ExpiringMap) (now : Nat) : List (String × Bool) :=
  (m.entries.filter fun (_, e) => e.isLive now).map fun (k, e) => (k, e.deadline.isSome)

end ExpiringMap
end QueryShield
