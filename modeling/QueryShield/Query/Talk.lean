import QueryShield.Query.Fault
import QueryShield.Data.Tables
import QueryShield.Data.Schema

/-!
# Conversations with the database and the cache store

The query layer does not reach its backends itself: it describes what it asks of them.  A
conversation is a tree whose leaves are results and whose inner nodes are requests; each
request names the type of its answer, and the branch taken depends on the answer.  The
requests are the two calls of a connection pool (fetch rows, execute a write), the four
commands of a key-value store (get, set with an optional lifetime, scan by glob pattern,
delete), and reading or recording the server version last seen.

Any backend that answers every request runs a conversation (`Talk.run`), and the order of
the requests a conversation makes is the order in which a backend sees them.  Failures of
the query layer itself are carried in `Query`, a conversation that may end in a
`QueryFault`.
-/

namespace QueryShield

/-- What the query layer asks of its backends. -/
inductive Request where
  /-- Run a query and return every row. -/
  | fetch (sql : String) (params : List Datum)
  /-- Run a write and commit it. -/
  | execute (sql : String) (params : List Datum)
  /-- The value stored under a key, if any. -/
  | storeGet (key : String)
  /-- Store a value, with a lifetime in seconds or none. -/
  | storeSet (key value : String) (lifetime : Option Nat)
  /-- The keys matching a glob pattern. -/
  | storeScan (pattern : String)
  /-- Remove a key; the answer says whether it existed. -/
  | storeDelete (key : String)
  /-- The server version last recorded. -/
  | knownVersion
  /-- Record the server version. -/
  | noteVersion (version : Option ServerVersion)

namespace Request

/-- The type of a request's answer. -/
def Answer : Request → Type
  | .fetch .. => Except PoolFault Fetched
  | .execute .. => Except PoolFault WriteResult
  | .storeGet _ => Except StoreFault (Option String)
  | .storeSet .. => Except StoreFault Unit
  | .storeScan _ => Except StoreFault (List String)
  | .storeDelete _ => Except StoreFault Bool
  | .knownVersion => Option ServerVersion
  | .noteVersion _ => Unit

end Request

/-- A conversation that ends in a value of type `α`. -/
inductive Talk (α : Type) where
  /-- The conversation is over, with its result. -/
  | done (result : α)
  /-- A request, and how the conversation goes on from its answer. -/
  | ask (request : Request) (next : request.Answer → Talk α)

namespace Talk

/-- One conversation, then another chosen by the first one's result. -/
def bind {α β : Type} : Talk α → (α → Talk β) → Talk β
  | .done a, f => f a
  | .ask r next, f => .ask r fun x => bind (next x) f

instance : Monad Talk where
  pure := .done
  bind := bind

/-- Asks one request and ends with its answer. -/
def request (r : Request) : Talk r.Answer := .ask r .done

/-- Runs a conversation against a backend with state `σ` that answers every request. -/
def run {α σ : Type} (answer : (r : Request) → σ → r.Answer × σ) : Talk α → σ → α × σ
  | .done a, s => (a, s)
  | .ask r next, s =>
    let (x, s') := answer r s
    run answer (next x) s'

/-- The requests a conversation makes against a backend, in order. -/
def requests {α σ : Type} (answer : (r : Request) → σ → r.Answer × σ) : Talk α → σ → List Request
  | .done _, _ => []
  | .ask r next, s =>
    let (x, s') := answer r s
    r :: requests answer (next x) s'

@[simp] theorem run_done {α σ : Type} (answer : (r : Request) → σ → r.Answer × σ) (a : α) (s : σ) :
    run answer (.done a) s = (a, s) := rfl

@[simp] theorem requests_done {α σ : Type} (answer : (r : Request) → σ → r.Answer × σ) (a : α)
    (s : σ) : requests answer (.done a) s = [] := rfl

theorem run_bind {α β σ : Type} (answer : (r : Request) → σ → r.Answer × σ) (t : Talk α)
    (f : α → Talk β) (s : σ) :
    run answer (bind t f) s = run answer (f (run answer t s).1) (run answer t s).2 := by
  induction t generalizing s with
  | done a => rfl
  | ask r next ih => exact ih (answer r s).1 (answer r s).2

end Talk

/-- A conversation of the query layer: it ends in a result or a failure. -/
abbrev Query := ExceptT QueryFault Talk

namespace Query

/-- Lifts a request into a query. -/
def ask (r : Request) : Query r.Answer := ExceptT.lift (Talk.request r)

/-- Fails with a fault. -/
def fail {α : Type} (f : QueryFault) : Query α := throw f

/-- Turns a refusal of the guard into a failure. -/
def guard {α : Type} (x : Except GuardError α) : Query α :=
  match x with
  | .ok a => pure a
  | .error e => fail (.rejected e)

/-- Runs a query and returns its rows; a pool failure fails the query. -/
def fetch (sql : String) (params : List Datum) : Query Fetched := do
  match ← ask (.fetch sql params) with
  | .ok rows => pure rows
  | .error f => fail (.pool f)

/-- Runs a write; a pool failure fails the query. -/
def execute (sql : String) (params : List Datum) : Query WriteResult := do
  match ← ask (.execute sql params) with
  | .ok w => pure w
  | .error f => fail (.pool f)

end Query
end QueryShield
