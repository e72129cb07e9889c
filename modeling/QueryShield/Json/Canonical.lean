import QueryShield.Json.Value
import QueryShield.Digest.Sha256

/-!
# Canonical JSON text and fingerprints

The canonical text of a value is its compact text with the members of every object sorted
by key, at every depth; arrays keep their order.  Two values built in different member
orders therefore share one canonical text.  The fingerprint of a value is the first twenty
hexadecimal digits of the SHA-256 digest of its canonical text.
-/

namespace QueryShield
namespace Json

/-- Members sorted by key; members of one key keep their order. -/
def orderMembers (members : List (String × Json)) : List (String × Json) :=
  members.mergeSort fun a b => !decide (b.1 < a.1)

mutual
/-- The value with the members of every object sorted by key. -/
def sortKeys : Json → Json
  | .array items => .array (sortKeysItems items)
  | .object members => .object (orderMembers (sortKeysMembers members))
  | v => v

/-- Items with their objects sorted by key. -/
def sortKeysItems : List Json → List Json
  | [] => []
  | x :: xs => sortKeys x :: sortKeysItems xs

/-- Members with the objects of their values sorted by key. -/
def sortKeysMembers : List (String × Json) → List (String × Json)
  | [] => []
  | (k, v) :: ms => (k, sortKeys v) :: sortKeysMembers ms
end

/-- The canonical text: compact, with object keys sorted at every depth. -/
def canonical (v : Json) : String := compact (sortKeys v)

/-- The number of hexadecimal digits a fingerprint keeps. -/
def fingerprintLength : Nat := 20

/-- The first twenty hexadecimal digits of the SHA-256 digest of the canonical text. -/
def fingerprint (v : Json) : String :=
  String.ofList ((Sha256.hex (canonical v)).toList.take fingerprintLength)

end Json
end QueryShield
