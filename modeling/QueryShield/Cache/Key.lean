import QueryShield.Cache.Category
import QueryShield.Cache.Glob
import QueryShield.Json.Canonical
import QueryShield.Name.Quote

/-!
# Cache keys

A key reads `namespace:label:family:name`, followed by `:digest` when the read has
parameters.  The parameters are named JSON values, one per name (a later value replaces an
earlier one); a set parameter has its members sorted by canonical text, so that their order
does not matter.  The digest is the fingerprint of the object of all parameters.

A key space is a namespace and a label.  It names the keys of reads and, for each table or
trigger, the glob patterns that cover every key a read about it can produce.
-/

namespace QueryShield

/-- The named parameters of a read, sorted by name, one value per name. -/
structure KeyFields where
  fields : List (String × Json) := []

namespace KeyFields

/-- Adds a parameter whose value counts in order. -/
def put (k : KeyFields) (name : String) (value : Json) : KeyFields :=
  ⟨Json.insertSorted name value k.fields⟩

/-- Adds a parameter whose members have no order: they are sorted by canonical text. -/
def putSet (k : KeyFields) (name : String) (members : List Json) : KeyFields :=
  k.put name (.array (members.mergeSort fun a b => !decide (Json.canonical b < Json.canonical a)))

/-- Whether there is no parameter. -/
def isEmpty (k : KeyFields) : Bool := k.fields.isEmpty

/-- The fingerprint of the parameters, if there are some. -/
def digest (k : KeyFields) : Option String :=
  if k.fields.isEmpty then none else some (Json.fingerprint (.object k.fields))

end KeyFields

/-- A fully qualified cache key. -/
structure CacheKey where
  nameSpace : String
  storeLabel : String
  category : Category
  name : String
  paramHash : Option String := none

namespace CacheKey

/-- The key as the store sees it. -/
def render (k : CacheKey) : String :=
  k.nameSpace ++ ":" ++ k.storeLabel ++ ":" ++ k.category.name ++ ":" ++ k.name ++
    match k.paramHash with
    | some h => ":" ++ h
    | none => ""

end CacheKey

/-- The first two parts of every key of one cache. -/
structure KeySpace where
  nameSpace : String
  storeLabel : String

namespace KeySpace

/-- The key of a read without parameters. -/
def key (s : KeySpace) (category : Category) (name : String) : CacheKey :=
  { nameSpace := s.nameSpace, storeLabel := s.storeLabel, category, name }

/-- The key of a read with parameters. -/
def keyWith (s : KeySpace) (category : Category) (name : String) (params : KeyFields) : CacheKey :=
  { s.key category name with paramHash := params.digest }

/-- The escaped `namespace:label:` that starts every pattern. -/
def patternPrefix (s : KeySpace) : String :=
  Glob.escape s.nameSpace ++ ":" ++ Glob.escape s.storeLabel ++ ":"

/-- A base and every key below it: `base` and `base:*`. -/
def covering (s : KeySpace) (base : String) : List String :=
  [s.patternPrefix ++ base, s.patternPrefix ++ base ++ ":*"]

/-- Patterns covering every key derived from a table: its data, counts, columns and
description. -/
def tablePatterns (s : KeySpace) (table : String) : List String :=
  let t := Glob.escape (Name.normalize table)
  ["data:" ++ t, "count:" ++ t, "schema:columns:" ++ t, "schema:describe:" ++ t].flatMap s.covering

/-- Patterns covering the list of tables. -/
def tableListPatterns (s : KeySpace) : List String := s.covering "schema:table_names"

/-- Patterns covering one trigger, or every trigger, and the trigger lists. -/
def triggerPatterns (s : KeySpace) (name : Option String) : List String :=
  let own := match name with
    | some n => s.covering ("schema:trigger:" ++ Glob.escape (Name.normalize n))
    | none => [s.patternPrefix ++ "schema:trigger:*"]
  own ++ s.covering "schema:triggers" ++ s.covering "schema:trigger_names"

/-- The pattern covering every schema key. -/
def schemaPattern (s : KeySpace) : String := s.patternPrefix ++ "schema:*"

/-- The pattern covering every key of the cache. -/
def allPattern (s : KeySpace) : String := s.patternPrefix ++ "*"

end KeySpace
end QueryShield
