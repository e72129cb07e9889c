/-!
# Canonical base64

A text is canonical standard base64 when it is the padded encoding of some bytes: its
length is a multiple of four, only the last one or two characters may be `=`, every other
character is in the standard alphabet, and the bits that the padding leaves over are zero.
Exactly the encodings of byte strings pass.
-/

namespace QueryShield
namespace Text

/-- The value of a character of the standard base64 alphabet. -/
def base64Value (c : Char) : Option Nat :=
  if 'A' ≤ c && c ≤ 'Z' then some (c.toNat - 'A'.toNat)
  else if 'a' ≤ c && c ≤ 'z' then some (c.toNat - 'a'.toNat + 26)
  else if '0' ≤ c && c ≤ '9' then some (c.toNat - '0'.toNat + 52)
  else if c == '+' then some 62
  else if c == '/' then some 63
  else none

/-- Whether the characters are a canonical padded base64 encoding. -/
def isCanonicalBase64 (cs : List Char) : Bool :=
  let n := cs.length
  let pad := (cs.reverse.takeWhile (· == '=')).length
  let body := cs.take (n - pad)
  n % 4 == 0 && pad ≤ 2 && body.all (fun c => (base64Value c).isSome) &&
    (match pad, body.getLast? with
     | 1, some c => (base64Value c).getD 0 % 4 == 0
     | 2, some c => (base64Value c).getD 0 % 16 == 0
     | _, _ => true)

end Text
end QueryShield
