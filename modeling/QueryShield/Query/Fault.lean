import QueryShield.Guard.Verdict
import QueryShield.Cache.Fault

/-!
# Failures of the query layer

A connection pool reports a failure of one of four kinds: the server could not be reached,
it did not answer in time, the statement was wrong, or a constraint was violated.  The first
two are connectivity failures.

Every operation of the query layer fails for one of four causes: its input was refused as
unsafe before anything reached the database, the pool failed, the cache failed, or the input
was well formed but unusable.  An operation failed for connectivity exactly when the pool or
the cache store could not be reached.
-/

namespace QueryShield

/-- The kinds of failure a connection pool reports. -/
inductive PoolFaultKind where
  /-- The server is unreachable, the connection dropped or the pool is closed. -/
  | connectivity
  /-- Acquiring a connection or running the statement took too long. -/
  | timeout
  /-- A wrong statement: unknown table or column, wrong parameter count. -/
  | programming
  /-- A constraint was violated. -/
  | integrity
deriving DecidableEq, Repr

namespace PoolFaultKind

/-- The kind's name. -/
def name : PoolFaultKind → String
  | .connectivity => "connectivity"
  | .timeout => "timeout"
  | .programming => "programming"
  | .integrity => "integrity"

/-- The kind of a name. -/
def ofName? : String → Option PoolFaultKind
  | "connectivity" => some .connectivity
  | "timeout" => some .timeout
  | "programming" => some .programming
  | "integrity" => some .integrity
  | _ => none

end PoolFaultKind

/-- A failure reported by a connection pool. -/
structure PoolFault where
  kind : PoolFaultKind
  message : String
deriving DecidableEq, Repr

namespace PoolFault

/-- The failure's text. -/
def text (f : PoolFault) : String := "database " ++ f.kind.name ++ " error: " ++ f.message

/-- Whether the database could not be reached in time. -/
def isConnectivity (f : PoolFault) : Bool :=
  f.kind == .connectivity || f.kind == .timeout

end PoolFault

/-- Why an operation of the query layer failed. -/
inductive QueryFault where
  /-- The input was refused before reaching the database. -/
  | rejected (e : GuardError)
  /-- The connection pool failed. -/
  | pool (f : PoolFault)
  /-- The cache failed. -/
  | cache (f : CacheFault)
  /-- The input is well formed but unusable. -/
  | invalid (reason : String)
deriving DecidableEq, Repr

namespace QueryFault

/-- The failure's message. -/
def message : QueryFault → String
  | .rejected e => "unsafe input rejected: " ++ e.message
  | .pool f => f.text
  | .cache f => f.message
  | .invalid r => "invalid input: " ++ r

/-- The failure's variant name. -/
def variantName : QueryFault → String
  | .rejected _ => "Injection"
  | .pool _ => "Pool"
  | .cache _ => "Cache"
  | .invalid _ => "InvalidInput"

/-- Whether the input was refused as unsafe. -/
def isInjection : QueryFault → Bool
  | .rejected _ => true
  | _ => false

/-- Whether the database or the cache store could not be reached. -/
def isConnectivity : QueryFault → Bool
  | .pool f => f.isConnectivity
  | .cache f => f.isConnectivity
  | _ => false

end QueryFault
end QueryShield
