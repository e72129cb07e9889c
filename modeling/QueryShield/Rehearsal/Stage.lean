import QueryShield.Rehearsal.StandIns
import QueryShield.Query.Front
import QueryShield.Text.Shown
import QueryShield.Settings.Basic

/-!
# The rehearsal stage

A stage answers the requests of the query layer with the stand-ins: queries and writes go to
the scripted pool (or fail, when the pool is closed), store commands to the watched store, and
the server version last seen is kept on the stage.  The stage logs what the query layer did:
every statement sent to the open pool, in order, and every value it stored successfully.

A rehearsal also holds the cache binding built from the settings, which can be taken out and
put back, and the clock the clauses are read with.
-/

namespace QueryShield

/-- Whether a statement was a query or a write. -/
inductive StatementKind where
  | query
  | execute
deriving DecidableEq, Repr

/-- A statement the query layer sent to the pool. -/
structure SentStatement where
  kind : StatementKind
  sql : String
  params : List Datum

/-- A value the query layer stored. -/
structure StoredValue where
  key : String
  value : String
  lifetime : Option Nat

/-- The stand-ins, what they were asked, and the server version last seen. -/
structure Stage where
  pool : ScriptedPool := {}
  poolClosed : Bool := false
  store : WatchedStore := {}
  knownVersion : Option ServerVersion := none
  statements : List SentStatement := []
  stored : List StoredValue := []

namespace Stage

/-- Answers one request. -/
def answer : (r : Request) → Stage → r.Answer × Stage
  | .fetch sql params, s =>
    if s.poolClosed then (.error closedPoolFault, s)
    else (s.pool.fetch sql, { s with statements := s.statements ++ [⟨.query, sql, params⟩] })
  | .execute sql params, s =>
    if s.poolClosed then (.error closedPoolFault, s)
    else (s.pool.execute sql, { s with statements := s.statements ++ [⟨.execute, sql, params⟩] })
  | .storeGet key, s =>
    match s.store.get key with
    | .ok (v, st) => (.ok v, { s with store := st })
    | .error f => (.error f, s)
  | .storeSet key value lifetime, s =>
    match s.store.set key value lifetime with
    | .ok st => (.ok (), { s with store := st, stored := s.stored ++ [⟨key, value, lifetime⟩] })
    | .error f => (.error f, s)
  | .storeScan pattern, s => (s.store.scan pattern, s)
  | .storeDelete key, s =>
    match s.store.delete key with
    | .ok (st, existed) => (.ok existed, { s with store := st })
    | .error f => (.error f, s)
  | .knownVersion, s => (s.knownVersion, s)
  | .noteVersion v, s => ((), { s with knownVersion := v })

/-- Runs a conversation on the stage. -/
def run {α : Type} (t : Talk α) (s : Stage) : α × Stage := Talk.run answer t s

/-- The stage with its logs emptied. -/
def clearLogs (s : Stage) : Stage := { s with statements := [], stored := [] }

/-- Whether the pool still hands out connections. -/
def poolActive (s : Stage) : Bool := !s.poolClosed

end Stage

/-- The settings of a binding as diagnostics show them. -/
def Binding.describe (b : Binding) : String :=
  let l := b.lifetimes
  "CacheBinding \x7b namespace: " ++ Text.shown b.space.nameSpace ++ ", store_label: " ++
    Text.shown b.space.storeLabel ++ ", ttl: TtlPolicy \x7b version: " ++ toString l.version ++
    ", schema: " ++ toString l.schema ++ ", data: " ++ toString l.data ++ ", count: " ++
    toString l.count ++ " \x7d, strict_decode: " ++ (if b.strictDecode then "true" else "false") ++
    " \x7d"

/-- A rehearsal of the query front: the stage, the binding built from the settings, the
binding in use and the clock. -/
structure Rehearsal where
  stage : Stage
  configured : Option Binding
  binding : Option Binding
  clock : Stamp

/-- The binding that settings call for: none when the cache is off. -/
def Binding.ofSettings (s : Settings) : Option Binding :=
  if s.cache.enabled then
    some ⟨⟨s.cache.nameSpace, s.storeLabel⟩, s.cache.lifetimes, s.cache.strictDecode⟩
  else none

namespace Rehearsal

/-- A rehearsal with fresh stand-ins; `withCache` says whether the front gets a cache at
all, `closedPool` whether the pool is closed. -/
def start (settings : Settings) (withCache closedPool : Bool) (clock : Stamp) : Rehearsal :=
  let binding := if withCache then Binding.ofSettings settings else none
  ⟨{ poolClosed := closedPool }, binding, binding, clock⟩

/-- Performs an operation through the front, or on the statements directly. -/
def perform (r : Rehearsal) (op : Operation) (direct : Bool := false) :
    Except QueryFault Outcome × Rehearsal :=
  let (result, stage) := r.stage.run (Front.perform r.clock (if direct then none else r.binding) op)
  (result, { r with stage })

/-- Puts the configured binding in use, or takes the binding out; whether one is in use. -/
def useBinding (r : Rehearsal) (enabled : Bool) : Rehearsal × Bool :=
  let binding := if enabled then r.configured else none
  ({ r with binding }, binding.isSome)

/-- Invalidates the keys matching the patterns of the binding in use; none when no binding
is in use. -/
def invalidate (r : Rehearsal) (patterns : KeySpace → List String) :
    Option (Except CacheFault Nat) × Rehearsal :=
  match r.binding with
  | none => (none, r)
  | some b =>
    let (result, stage) := r.stage.run (Binding.invalidate (patterns b.space))
    (some result, { r with stage })

/-- The front as diagnostics show it. -/
def describe (r : Rehearsal) : String :=
  "CacheOrchestrator \x7b boilerplates: QueryBoilerplates \x7b pool_active: " ++
    (if r.stage.poolActive then "true" else "false") ++
    ", parameterizer: Parameterizer \x7b .. \x7d \x7d, binding: " ++
    (match r.binding with
      | some b => "Some(" ++ b.describe ++ ")"
      | none => "None") ++ " \x7d"

end Rehearsal
end QueryShield
