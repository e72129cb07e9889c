import QueryShield.Json.Reader

/-!
# Typed reading of JSON text

Readers for values of a known type, straight from the text: unsigned integers with an upper
bound, strings, booleans, optional values, sequences, string-keyed maps and records with
named fields.  A value of the wrong type is refused with what was found and what was
expected; the refusal is placed after the offending value (after its opening bracket for an
array or object).

A record may be written as an object, its fields in any order and unknown fields skipped,
or as an array of its fields in order.  A missing field is refused unless it is optional; a
field given twice is refused.  A map keeps one value per key, the last one given, sorted by
key.
-/

namespace QueryShield
namespace Json

/-- Reads a value that must open with `open_`, with `body` after the opening character;
anything else is refused as being of the wrong type. -/
def bracketOr {α : Type} (expected : String) (open_ : Char) (depth : Nat) (body : Reading α)
    (close : Reading Unit) : Reading α := do
  let r ← attempt do
    match ← blanks with
    | none => failAhead eofValue
    | some c =>
      if c == open_ then bracketed depth body close
      else wrongType expected
  match r with
  | .ok v => pure v
  | .error e => throw (← fix e)

/-- A sequence of items, each read by `item`. -/
def seqOf {α : Type} (expected : String) (item : Nat → Reading α) (depth : Nat) : Reading (List α) :=
  bracketOr expected '[' depth (arrayItems (item (depth - 1))) endArray

/-- A map from strings to values read by `value`: sorted by key, the last value of a key kept. -/
def mapOf {α : Type} (expected : String) (value : Nat → Reading α) (depth : Nat) :
    Reading (List (String × α)) :=
  bracketOr expected '{' depth
    (do
      let ms ← members fun k => do pure (k, ← value (depth - 1))
      pure (ms.foldl (fun acc (k, v) => insertPair k v acc) []))
    endObject
where
  insertPair (k : String) (v : α) : List (String × α) → List (String × α)
    | [] => [(k, v)]
    | (k', v') :: rest =>
      if k == k' then (k, v) :: rest
      else if k < k' then (k, v) :: (k', v') :: rest
      else (k', v') :: insertPair k v rest

/-- Reads a number; a value of another type is refused. -/
def numberOf (expected : String) : Reading JsonNumber := do
  let r ← attempt do
    match ← blanks with
    | none => failAhead eofValue
    | some '-' => eat; readNumber false
    | some c => if isDigit c then readNumber true else wrongType expected
  match r with
  | .ok v => pure v
  | .error e => throw (← fix e)

/-- An unsigned integer below `bound`, named `expected` in refusals. -/
def unsignedBelow (bound : Nat) (expected : String) : Reading Nat := do
  let n ← numberOf expected
  let r : Except Mismatch Nat := match n with
    | .unsigned k => if k < bound then .ok k else .error (.invalidValue (.unsigned k) expected)
    | .signed k => .error (.invalidValue (.signed k) expected)
    | .float x => .error (.invalidType (.float x) expected)
  match r with
  | .ok k => pure k
  | .error m => throw (← fix { message := m.message })

/-- A signed 64-bit integer. -/
def signed64 : Reading Int := do
  let n ← numberOf "i64"
  let r : Except Mismatch Int := match n with
    | .unsigned k => if k < Nat.pow 2 63 then .ok k else .error (.invalidValue (.unsigned k) "i64")
    | .signed k => .ok k
    | .float x => .error (.invalidType (.float x) "i64")
  match r with
  | .ok k => pure k
  | .error m => throw (← fix { message := m.message })

/-- A string. -/
def stringOf (expected : String := "a string") : Reading String := do
  let r ← attempt do
    match ← blanks with
    | none => failAhead eofValue
    | some '"' => eat; readString
    | some _ => wrongType expected
  match r with
  | .ok v => pure v
  | .error e => throw (← fix e)

/-- A boolean. -/
def boolOf : Reading Bool := do
  let r ← attempt do
    match ← blanks with
    | none => failAhead eofValue
    | some 't' => eat; ident "rue".toList; pure true
    | some 'f' => eat; ident "alse".toList; pure false
    | some _ => wrongType "a boolean"
  match r with
  | .ok v => pure v
  | .error e => throw (← fix e)

/-- An optional value: `null` is none. -/
def optionOf {α : Type} (inner : Reading α) : Reading (Option α) := do
  match ← blanks with
  | some 'n' => eat; ident "ull".toList; pure none
  | none => failAhead eofValue
  | some _ => some <$> inner

/-- A named field of a record: its reader, and whether it may be missing. -/
structure Field where
  name : String
  read : Nat → Reading Json
  optional : Bool := false

/-- The fields read so far, by position in the field list. -/
def setAt (xs : List (Option Json)) (i : Nat) (v : Json) : List (Option Json) :=
  xs.set i (some v)

/-- The fields read, in field order, once the object is closed; a missing field that is not
optional is refused. -/
def collectFields (fields : List Field) (got : List (Option Json)) :
    Reading (List (Option Json)) :=
  (fields.zip got).mapM fun (f, v) =>
    match v with
    | some x => pure (some x)
    | none => if f.optional then pure none else mismatch (.missingField f.name)

/-- Record members from the next one on: the fields read so far are in `got`, by position
in the field list, at most `fuel` more members are tried, and `first` says that none was
read yet.  A member that names no field is read and dropped. -/
def recordMembersFrom (fields : List Field) (depth : Nat) :
    Nat → Bool → List (Option Json) → Reading (List (Option Json))
  | 0, _, _ => failAhead "EOF while parsing an object"
  | fuel + 1, first, got => do
    if ← memberStart first then
      let k ← key
      match fields.findIdx? (·.name == k) with
      | some j =>
        if (got.getD j none).isSome then
          mismatch (.duplicateField k)
        colon
        let f := fields.getD j ⟨k, fun _ => pure Json.null, true⟩
        let v ← f.read (depth - 1)
        recordMembersFrom fields depth fuel false (setAt got j v)
      | none =>
        colon
        let _ ← readValue (depth - 1)
        recordMembersFrom fields depth fuel false got
    else collectFields fields got

/-- The members of a record written as an object. -/
def recordMembers (fields : List Field) (depth : Nat) : Reading (List (Option Json)) := do
  let n ← remaining
  recordMembersFrom fields depth (n + 1) true (fields.map fun _ => none)

/-- The members of a record written as an array of its fields in order. -/
def recordItems (expected : String) (fields : List Field) (depth : Nat) :
    Reading (List (Option Json)) := do
  let mut out : List (Option Json) := []
  let mut i := 0
  for f in fields do
    if ← arrayItemStart (i == 0) then
      out := some (← f.read (depth - 1)) :: out
      i := i + 1
    else mismatch (.invalidLength i expected)
  return out.reverse

/-- A record with the given fields, in field order; a missing optional field is none. -/
def recordOf (name : String) (fields : List Field) (depth : Nat) : Reading (List (Option Json)) := do
  let expected := "struct " ++ name
  let r ← attempt do
    match ← blanks with
    | none => failAhead eofValue
    | some '{' => bracketed depth (recordMembers fields depth) endObject
    | some '[' =>
      bracketed depth
        (recordItems (expected ++ " with " ++ toString fields.length ++ " elements") fields depth)
        endArray
    | some _ => wrongType expected
  match r with
  | .ok v => pure v
  | .error e => throw (← fix e)

/-- What a value is, as decoding messages name it. -/
def found : Json → Found
  | .null => .unit
  | .bool b => .boolean b
  | .number (.unsigned n) => .unsigned n
  | .number (.signed n) => .signed n
  | .number (.float x) => .float x
  | .string s => .str s
  | .array _ => .sequence
  | .object _ => .map

end Json
end QueryShield
