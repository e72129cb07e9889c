/-!
# Families of cached data and their lifetimes

Cached data falls into four families: the server version, schema facts, table data and row
counts.  Each family has a lifetime in seconds; a lifetime of zero or less means that
entries of the family never expire.  A read may bring a lifetime of its own, which then
replaces the family's.
-/

namespace QueryShield

/-- A family of cached data. -/
inductive Category where
  | version
  | schema
  | data
  | count
deriving DecidableEq, Repr

namespace Category

/-- The family's name, as it stands in keys. -/
def name : Category → String
  | .version => "version"
  | .schema => "schema"
  | .data => "data"
  | .count => "count"

/-- The family of a name. -/
def ofName? : String → Option Category
  | "version" => some .version
  | "schema" => some .schema
  | "data" => some .data
  | "count" => some .count
  | _ => none

/-- Every family, in the order settings list them. -/
def all : List Category := [.version, .schema, .data, .count]

theorem ofName?_name (c : Category) : ofName? c.name = some c := by
  cases c <;> rfl

end Category

/-- Lifetimes in seconds, one per family; zero or less means no expiry. -/
structure Lifetimes where
  version : Int := 86400
  schema : Int := 3600
  data : Int := 120
  count : Int := 60
deriving DecidableEq, Repr

namespace Lifetimes

/-- The lifetime of a family. -/
def secondsFor (l : Lifetimes) : Category → Int
  | .version => l.version
  | .schema => l.schema
  | .data => l.data
  | .count => l.count

/-- The expiry handed to the store: the read's own lifetime if it brings one, else the
family's; `none` (no expiry) unless that is positive. -/
def effective (l : Lifetimes) (c : Category) (override : Option Int) : Option Nat :=
  let secs := override.getD (l.secondsFor c)
  if 0 < secs then some secs.toNat else none

end Lifetimes
end QueryShield
