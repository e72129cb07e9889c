import QueryShield.Text.Ranges

/-!
# Blank characters

The characters with Unicode's `White_Space` property: the ASCII controls tab to carriage
return, space, next line, no-break space, ogham space mark, the typographic spaces,
the line and paragraph separators and the ideographic space.  Trimming a text removes them
from both ends.
-/

namespace QueryShield
namespace Text

/-- Closed code point ranges of the blank characters, ascending and disjoint. -/
def blankRanges : List (Nat × Nat) := [
  (0x9, 0xD), (0x20, 0x20), (0x85, 0x85), (0xA0, 0xA0), (0x1680, 0x1680), (0x2000, 0x200A),
  (0x2028, 0x2029), (0x202F, 0x202F), (0x205F, 0x205F), (0x3000, 0x3000)]

/-- Whether a character is blank in Unicode's sense. -/
def isBlank (c : Char) : Bool := inRanges blankRanges c.toNat

/-- Drops blank characters from both ends of a list of characters. -/
def trimChars (cs : List Char) : List Char :=
  ((cs.dropWhile isBlank).reverse.dropWhile isBlank).reverse

/-- Drops blank characters from both ends of a text. -/
def trim (s : String) : String := String.ofList (trimChars s.toList)

/-- Whether a text holds blank characters only. -/
def isBlankText (s : String) : Bool := s.toList.all isBlank

end Text
end QueryShield
