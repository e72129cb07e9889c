import QueryShield.Toml.Reader
import QueryShield.Decode.Mismatch

/-!
# TOML: typed decoding

Values are decoded as a typed reader asks for them, and a failure points at the value that
failed.  An integer is handed over as the narrowest of a signed or unsigned 64-bit and then
128-bit integer that holds it, and messages name it that way (``integer `n` as i128``); dates
and times are handed over as maps.  A record is read from a table, its keys in sorted order
with unknown keys skipped, or from an array, its items taken for the fields in the order they
are declared; fields not given keep their defaults.  A choice among names is read from a
string, or from a table with exactly one key.
-/

namespace QueryShield
namespace Toml

/-- What an integer is, as decoding messages name it; none when it is too wide for any. -/
def integerFound (n : Int) : Option Found :=
  if -(Nat.pow 2 63 : Int) ≤ n && n < Nat.pow 2 63 then some (.signed n)
  else if 0 ≤ n && n < Nat.pow 2 64 then some (.unsigned n.toNat)
  else if -(Nat.pow 2 127 : Int) ≤ n && n < Nat.pow 2 127 then some (.other ("integer `" ++ toString n ++ "` as i128"))
  else if 0 ≤ n && n < Nat.pow 2 128 then some (.other ("integer `" ++ toString n ++ "` as u128"))
  else none

/-- What a value is, as decoding messages name it. -/
def Value.found : Value → Found
  | .string s => .str s
  | .integer n => (integerFound n).getD (.other "integer")
  | .float x => .float x
  | .boolean b => .boolean b
  | .datetime _ => .map
  | .array _ _ => .sequence
  | .table _ _ => .map

/-- A failure at a value. -/
def mismatchAt {α : Type} (m : Mismatch) (span : Span) : Except Fault α := .error ⟨m.message, some span⟩

/-- The failure for a value of the wrong type. -/
def wrongType {α : Type} (v : Value) (span : Span) (expected : String) : Except Fault α :=
  match v with
  | .integer n =>
    match integerFound n with
    | some f => mismatchAt (.invalidType f expected) span
    | none => .error ⟨"integer number overflowed", some span⟩
  | other => mismatchAt (.invalidType other.found expected) span

/-- A string. -/
def text (v : Value) (span : Span) : Except Fault String :=
  match v with
  | .string s => .ok s
  | _ => wrongType v span "a string"

/-- A boolean. -/
def bool (v : Value) (span : Span) : Except Fault Bool :=
  match v with
  | .boolean b => .ok b
  | _ => wrongType v span "a boolean"

/-- An integer in a range, named `expected` in messages. -/
def integerIn (lo hi : Int) (expected : String) (v : Value) (span : Span) : Except Fault Int :=
  match v with
  | .integer n =>
    match integerFound n with
    | some f => if lo ≤ n && n < hi then .ok n else mismatchAt (.invalidValue f expected) span
    | none => .error ⟨"integer number overflowed", some span⟩
  | _ => wrongType v span expected

/-- An unsigned integer below `2^bits`. -/
def unsigned (bits : Nat) (v : Value) (span : Span) : Except Fault Nat :=
  Int.toNat <$> integerIn 0 (Nat.pow 2 bits) ("u" ++ toString bits) v span

/-- A signed 64-bit integer. -/
def signed64 (v : Value) (span : Span) : Except Fault Int :=
  integerIn (-(Nat.pow 2 63)) (Nat.pow 2 63) "i64" v span

/-- One of a list of names. -/
def variant (variants : List String) (v : Value) (span : Span) : Except Fault String :=
  match v with
  | .string s => if variants.contains s then .ok s else mismatchAt (.unknownVariant s variants) span
  | .table [] _ => .error ⟨"wanted exactly 1 element, found 0 elements", some span⟩
  | .table [(k, _, _, _)] _ =>
    if variants.contains k then .ok k else mismatchAt (.unknownVariant k variants) span
  | .table _ _ => .error ⟨"wanted exactly 1 element, more than 1 element", some span⟩
  | _ => .error ⟨"wanted string or table", some span⟩

/-- A record: from a table, its keys in sorted order, unknown keys skipped; from an array, its
items for the fields in order. -/
def record {α : Type} (name : String) (default : α)
    (fields : List (String × (Value → Span → α → Except Fault α))) (v : Value) (span : Span) :
    Except Fault α :=
  match v with
  | .table entries _ =>
    (entries.mergeSort fun a b => decide (a.1 ≤ b.1)).foldlM (fun acc (k, _, fv, fs) =>
      match fields.lookup k with
      | some f => f fv fs acc
      | none => .ok acc) default
  | .array items _ =>
    (fields.zip items).foldlM (fun acc ((_, f), (iv, is)) => f iv is acc) default
  | _ => wrongType v span ("struct " ++ name)

end Toml
end QueryShield
