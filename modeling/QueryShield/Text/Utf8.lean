/-!
# Validating UTF-8

A byte sequence is valid UTF-8 when it splits into encoded characters: one ASCII byte, or a
lead byte `C2`–`F4` followed by one to three continuation bytes `80`–`BF`, where the second
byte after `E0`, `ED`, `F0` and `F4` is further restricted so that no character is encoded
too long, none is a surrogate and none is above `10FFFF`.

The first fault is reported with the length of the valid prefix before it and the number of
bytes that form the bad sequence, or no number when the sequence is cut short by the end.
-/

namespace QueryShield
namespace Utf8

/-- Where and how a byte sequence stops being valid UTF-8. -/
structure Fault where
  validUpTo : Nat
  errorLength : Option Nat
deriving DecidableEq, Repr

/-- The fault's message. -/
def Fault.message (f : Fault) : String :=
  match f.errorLength with
  | some n => "invalid utf-8 sequence of " ++ toString n ++ " bytes from index " ++ toString f.validUpTo
  | none => "incomplete utf-8 byte sequence from index " ++ toString f.validUpTo

/-- The number of bytes that encode a list of characters. -/
def size : List Char → Nat
  | [] => 0
  | c :: rest => c.utf8Size + size rest

/-- Whether a byte continues a character. -/
def isContinuation (b : UInt8) : Bool := 0x80 ≤ b && b ≤ 0xBF

/-- The allowed range of the byte after a lead byte. -/
def secondRange (lead : UInt8) : UInt8 × UInt8 :=
  if lead == 0xE0 then (0xA0, 0xBF)
  else if lead == 0xED then (0x80, 0x9F)
  else if lead == 0xF0 then (0x90, 0xBF)
  else if lead == 0xF4 then (0x80, 0x8F)
  else (0x80, 0xBF)

/-- The number of bytes of the character a lead byte starts, or zero for a byte that starts
none. -/
def width (b : UInt8) : Nat :=
  if b < 0x80 then 1
  else if 0xC2 ≤ b && b ≤ 0xDF then 2
  else if 0xE0 ≤ b && b ≤ 0xEF then 3
  else if 0xF0 ≤ b && b ≤ 0xF4 then 4
  else 0

/-- Checks one character after its lead byte: how many bytes it takes, or the fault's length
(none when the bytes end first). -/
def character (lead : UInt8) (rest : List UInt8) : Except (Option Nat) Nat :=
  let w := width lead
  if w == 1 then .ok 1
  else if w == 0 then .error (some 1)
  else
    let (lo, hi) := secondRange lead
    match rest with
    | [] => .error none
    | b :: more =>
      if !(lo ≤ b && b ≤ hi) then .error (some 1)
      else if w == 2 then .ok 2
      else match more with
        | [] => .error none
        | c :: more' =>
          if !isContinuation c then .error (some 2)
          else if w == 3 then .ok 3
          else match more' with
            | [] => .error none
            | d :: _ => if isContinuation d then .ok 4 else .error (some 3)

/-- The first fault of a byte sequence, counting from `offset`; none when it is valid. -/
def check (offset : Nat) (bytes : List UInt8) : Option Fault :=
  match bytes with
  | [] => none
  | b :: rest =>
    match character b rest with
    | .error len => some ⟨offset, len⟩
    | .ok (n + 1) => check (offset + n + 1) (rest.drop n)
    | .ok 0 => none
termination_by bytes.length
decreasing_by simp only [List.length_drop, List.length_cons]; omega

/-- The character of one valid encoded sequence. -/
def decodeChar : List UInt8 → Char
  | [a] => Char.ofNat a.toNat
  | [a, b] => Char.ofNat ((a.toNat % 32) * 64 + b.toNat % 64)
  | [a, b, c] => Char.ofNat ((a.toNat % 16) * 4096 + (b.toNat % 64) * 64 + c.toNat % 64)
  | [a, b, c, d] =>
    Char.ofNat ((a.toNat % 8) * 262144 + (b.toNat % 64) * 4096 + (c.toNat % 64) * 64 + d.toNat % 64)
  | _ => '\uFFFD'

/-- The characters of a byte sequence, each bad sequence replaced by one replacement
character `U+FFFD`. -/
def decodeLossy (bytes : List UInt8) : List Char :=
  match bytes with
  | [] => []
  | b :: rest =>
    match character b rest with
    | .error none => ['\uFFFD']
    | .error (some (k + 1)) => '\uFFFD' :: decodeLossy (rest.drop k)
    | .error (some 0) => ['\uFFFD']
    | .ok (n + 1) => decodeChar ((b :: rest).take (n + 1)) :: decodeLossy (rest.drop n)
    | .ok 0 => []
termination_by bytes.length
decreasing_by all_goals simp only [List.length_drop, List.length_cons]; omega

/-- The text of a byte sequence, bad sequences replaced. -/
def textLossy (bytes : List UInt8) : String := String.ofList (decodeLossy bytes)

end Utf8
end QueryShield
