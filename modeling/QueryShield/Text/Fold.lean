/-!
# Caseless comparison with ASCII words

Matching that ignores case compares characters by Unicode's simple case folding.  For an
ASCII letter the equivalence class holds its two ASCII cases and, for `k` and `s`, one
more character each: the Kelvin sign `U+212A` folds to `k` and the long s `U+017F` folds
to `s`.  No other character folds to an ASCII letter.
-/

namespace QueryShield
namespace Text

/-- Whether the character `c` equals `a` up to simple case folding, where `a` is ASCII. -/
def foldEq (c a : Char) : Bool :=
  c == a || c.toLower == a.toLower && c.toNat < 0x80 ||
    (a.toLower == 'k' && c == 'K') || (a.toLower == 's' && c == 'ſ')

/-- Whether the characters equal the ASCII word `w` up to simple case folding. -/
def foldEqWord : List Char → List Char → Bool
  | [], [] => true
  | c :: cs, a :: as => foldEq c a && foldEqWord cs as
  | _, _ => false

/-- Whether the characters begin with the ASCII word `w` up to simple case folding. -/
def foldPrefix : List Char → List Char → Bool
  | _, [] => true
  | c :: cs, a :: as => foldEq c a && foldPrefix cs as
  | [], _ :: _ => false

/-- ASCII lower case of a text, other characters unchanged. -/
def asciiLower (s : String) : String := s.map Char.toLower

/-- ASCII upper case of a text, other characters unchanged. -/
def asciiUpper (s : String) : String := s.map Char.toUpper

/-- Equality of two texts up to ASCII case. -/
def eqIgnoreAsciiCase (a b : String) : Bool := asciiLower a == asciiLower b

end Text
end QueryShield
