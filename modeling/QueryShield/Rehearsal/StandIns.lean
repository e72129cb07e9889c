import QueryShield.Query.Talk
import QueryShield.Cache.ExpiringMap
import QueryShield.Clock.Instant

/-!
# Stand-ins for the database and the cache store

To rehearse the query layer without a server, a scripted pool stands in for the database
and a watched store for the cache store.

The scripted pool answers a query with the latest scripted answer whose prefix starts the
statement, and with no columns and no rows when none does; an answer may be a failure.  A
write fails with the first scripted write failure whose prefix starts the statement, else
with the failure set for every write, if any; otherwise it reports a fixed count of rows.

The watched store keeps its entries in an expiring map.  It can be taken down, so that every
command fails as unreachable, or made to refuse some of its commands (`get`, `set`, `scan`,
`delete`).  Time does not pass during a rehearsal: entries with a lifetime stay live.  The
deadline of an entry is dated with the monotonic clock, which has passed its first second; a
lifetime that takes the deadline out of the clock's range makes the store panic, and the
rehearsal ends there.
-/

namespace QueryShield

/-- A stand-in for the database that answers by script. -/
structure ScriptedPool where
  /-- Answers to queries by statement prefix, the latest first. -/
  answers : List (String × Except PoolFault Fetched) := []
  /-- Write failures by statement prefix, in the order they were scripted. -/
  writeFailures : List (String × PoolFault) := []
  /-- The failure of every other write, if one is set. -/
  anyWriteFailure : Option PoolFault := none
  /-- The count of rows every successful write reports. -/
  affected : Nat := 1

namespace ScriptedPool

/-- The answer to a query. -/
def fetch (p : ScriptedPool) (sql : String) : Except PoolFault Fetched :=
  match p.answers.find? fun a => sql.startsWith a.1 with
  | some (_, answer) => answer
  | none => .ok {}

/-- The answer to a write. -/
def execute (p : ScriptedPool) (sql : String) : Except PoolFault WriteResult :=
  match p.writeFailures.find? fun f => sql.startsWith f.1 with
  | some (_, f) => .error f
  | none =>
    match p.anyWriteFailure with
    | some f => .error f
    | none => .ok ⟨p.affected⟩

/-- Scripts the rows of queries starting with `pre`. -/
def respond (p : ScriptedPool) (pre : String) (rows : Fetched) : ScriptedPool :=
  { p with answers := (pre, .ok rows) :: p.answers }

/-- Scripts a failure of queries starting with `pre`. -/
def failQueries (p : ScriptedPool) (pre : String) (f : PoolFault) : ScriptedPool :=
  { p with answers := (pre, .error f) :: p.answers }

/-- Sets or clears the failure of every write. -/
def failWrites (p : ScriptedPool) (f : Option PoolFault) : ScriptedPool :=
  { p with anyWriteFailure := f }

/-- Scripts a failure of writes starting with `pre`. -/
def failWritesMatching (p : ScriptedPool) (pre : String) (f : PoolFault) : ScriptedPool :=
  { p with writeFailures := p.writeFailures ++ [(pre, f)] }

/-- Sets the count of rows successful writes report. -/
def setAffected (p : ScriptedPool) (n : Nat) : ScriptedPool := { p with affected := n }

theorem fetch_respond (p : ScriptedPool) (pre sql : String) (rows : Fetched)
    (h : sql.startsWith pre = true) : (p.respond pre rows).fetch sql = .ok rows := by
  simp [respond, fetch, h]

end ScriptedPool

/-- The failure of every command of a closed pool. -/
def closedPoolFault : PoolFault :=
  ⟨.connectivity, "attempted to acquire a connection on a closed pool"⟩

/-- The commands of a key-value store, as they are named. -/
inductive StoreCommand where
  | get
  | set
  | scan
  | delete
deriving DecidableEq, Repr

namespace StoreCommand

/-- The command's name. -/
def name : StoreCommand → String
  | .get => "get"
  | .set => "set"
  | .scan => "scan"
  | .delete => "delete"

/-- The command of a name. -/
def ofName? : String → Option StoreCommand
  | "get" => some .get
  | "set" => some .set
  | "scan" => some .scan
  | "delete" => some .delete
  | _ => none

end StoreCommand

/-- A stand-in for the cache store that can be taken down or made to refuse commands. -/
structure WatchedStore where
  entries : ExpiringMap := {}
  down : Bool := false
  refusing : List StoreCommand := []
  panicked : Option String := none
  /-- The monotonic clock's reading at every command: time does not pass.  It counts from boot,
  and by default the store runs after the first second. -/
  clock : Instant := ⟨1, 0, Instant.one_le_maxSecs, Instant.zero_lt_second⟩

namespace WatchedStore

/-- The moment of every command, in whole seconds of the clock. -/
def now (s : WatchedStore) : Nat := s.clock.secs

/-- Whether a command may run, or how it fails. -/
def allow (s : WatchedStore) (c : StoreCommand) : Except StoreFault Unit :=
  if s.down then .error (.unreachable "store down")
  else if s.refusing.contains c then .error (.refused (c.name ++ " refused"))
  else .ok ()

/-- The live value of a key, and the store without the key's entry if it has expired. -/
def get (s : WatchedStore) (key : String) : Except StoreFault (Option String × WatchedStore) := do
  s.allow .get
  let (v, m) := s.entries.get key s.now
  pure (v, { s with entries := m })

/-- The panic of storing a value with this lifetime: its deadline is out of the clock's
range. -/
def panicOf (s : WatchedStore) (lifetime : Option Nat) : Option String :=
  if s.clock.fits lifetime then none else some Instant.overflowMessage

/-- Stores a value.  A deadline out of the clock's range is not stored: the store panics. -/
def set (s : WatchedStore) (key value : String) (lifetime : Option Nat) :
    Except StoreFault WatchedStore := do
  s.allow .set
  match s.panicOf lifetime with
  | none => pure { s with entries := s.entries.set key value lifetime s.now }
  | some p => pure { s with panicked := some p }

/-- The live keys matching a glob pattern. -/
def scan (s : WatchedStore) (pattern : String) : Except StoreFault (List String) := do
  s.allow .scan
  pure (s.entries.scan pattern s.now)

/-- Removes a key, saying whether it was there. -/
def delete (s : WatchedStore) (key : String) : Except StoreFault (WatchedStore × Bool) := do
  s.allow .delete
  let (m, existed) := s.entries.delete key
  pure ({ s with entries := m }, existed)

/-- The live keys, sorted, each with whether it expires. -/
def keysWithExpiry (s : WatchedStore) : List (String × Bool) := s.entries.keysWithExpiry s.now

end WatchedStore
end QueryShield
