import QueryShield.Text.Ranges

/-!
# Texts shown in diagnostic output

Diagnostic descriptions show a text in double quotes with the characters that would not
read back written as escapes: the usual backslash escapes for NUL, tab, line feed, carriage
return, backslash and double quote, and `\u{hex}` (lower-case hexadecimal, no leading
zeros) for control and format characters, combining marks, private-use characters and
non-characters.
-/

namespace QueryShield
namespace Text

/-- Ranges of characters written as `\u{hex}`: controls, format characters, combining
marks, variation selectors, private use and non-characters. -/
def hiddenRanges : List (Nat × Nat) := [
  (0x0, 0x1F), (0x7F, 0x9F), (0xAD, 0xAD), (0x300, 0x36F), (0x483, 0x489), (0x591, 0x5BD),
  (0x600, 0x605), (0x61C, 0x61C), (0x6DD, 0x6DD), (0x70F, 0x70F), (0x180B, 0x180F),
  (0x1AB0, 0x1AFF), (0x1DC0, 0x1DFF), (0x200B, 0x200F), (0x2028, 0x202E), (0x2060, 0x206F),
  (0x20D0, 0x20F0), (0xD800, 0xF8FF), (0xFE00, 0xFE0F), (0xFE20, 0xFE2F), (0xFEFF, 0xFEFF),
  (0xFFF0, 0xFFFB), (0xFFFE, 0xFFFF), (0xE0000, 0xE0FFF), (0xF0000, 0x10FFFF)]

/-- The lower-case hexadecimal digits of a number, without leading zeros. -/
def hexDigits (n : Nat) : List Char :=
  (Nat.toDigits 16 n)

/-- How one character is shown. -/
def shownChar (c : Char) : List Char :=
  match c with
  | '\x00' => ['\\', '0']
  | '\t' => ['\\', 't']
  | '\n' => ['\\', 'n']
  | '\r' => ['\\', 'r']
  | '\\' => ['\\', '\\']
  | '"' => ['\\', '"']
  | c =>
    if inRanges hiddenRanges c.toNat then ['\\', 'u', '\x7b'] ++ hexDigits c.toNat ++ ['\x7d']
    else [c]

/-- A text in double quotes, with escapes. -/
def shown (s : String) : String :=
  "\"" ++ String.ofList (s.toList.flatMap shownChar) ++ "\""

end Text
end QueryShield
