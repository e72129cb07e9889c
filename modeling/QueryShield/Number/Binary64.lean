/-!
# Binary64 floating point values

A double-precision value is held as its 64 bits.  Everything here is exact arithmetic on
natural numbers: a finite value is `m · 2^q` for an integer mantissa `m` and exponent `q`,
and a rational number is rounded to the nearest value, a tie going to the even mantissa.

* `ofRatio` rounds a non-negative rational to a value (too large gives an infinity, too
  small gives zero or a subnormal);
* `mul` and `div` are the correctly rounded products and quotients;
* `shortest` finds the fewest decimal digits that round back to the value, the nearest
  such digits when there is a choice.
-/

namespace QueryShield

/-- An IEEE 754 double-precision value, held as its 64 bits. -/
structure Binary64 where
  bits : UInt64
deriving DecidableEq, Repr

namespace Binary64

/-- The biased exponent field. -/
def expField (x : Binary64) : Nat := (x.bits.toNat / Nat.pow 2 52) % 2048

/-- The fraction field. -/
def fraction (x : Binary64) : Nat := x.bits.toNat % Nat.pow 2 52

/-- Whether the sign bit is set. -/
def negative (x : Binary64) : Bool := x.bits.toNat ≥ Nat.pow 2 63

/-- Whether the value is not a number. -/
def isNaN (x : Binary64) : Bool := x.expField == 2047 && x.fraction != 0

/-- Whether the value is an infinity. -/
def isInfinite (x : Binary64) : Bool := x.expField == 2047 && x.fraction == 0

/-- Whether the value is finite. -/
def isFinite (x : Binary64) : Bool := x.expField != 2047

/-- Whether the value is a zero of either sign. -/
def isZero (x : Binary64) : Bool := x.expField == 0 && x.fraction == 0

/-- The value with the given sign, exponent field and fraction field. -/
def make (neg : Bool) (e f : Nat) : Binary64 :=
  ⟨UInt64.ofNat ((if neg then Nat.pow 2 63 else 0) + e * Nat.pow 2 52 + f)⟩

/-- Zero of the given sign. -/
def zero (neg : Bool) : Binary64 := make neg 0 0

/-- Infinity of the given sign. -/
def infinity (neg : Bool) : Binary64 := make neg 2047 0

/-- The quiet not-a-number. -/
def nan : Binary64 := make false 2047 (Nat.pow 2 51)

/-- The value with its sign flipped. -/
def negate (x : Binary64) : Binary64 := make (!x.negative) x.expField x.fraction

/-- A finite value as mantissa and binary exponent: the magnitude is `m · 2^q`. -/
def decode (x : Binary64) : Nat × Int :=
  if x.expField == 0 then (x.fraction, -1074)
  else (x.fraction + Nat.pow 2 52, (x.expField : Int) - 1075)

/-- `num · 2^(-q) / den` as quotient, remainder and divisor. -/
def scaledDiv (num den : Nat) (q : Int) : Nat × Nat × Nat :=
  let n := num * Nat.pow 2 (-q).toNat
  let d := den * Nat.pow 2 q.toNat
  (n / d, n % d, d)

/-- The binary exponent that puts `num / den` into `[2^52, 2^53)` when scaled by it. -/
def normalExponent (num den : Nat) : Int :=
  let q0 : Int := (Nat.log2 num : Int) - (Nat.log2 den : Int) - 52
  let (m0, _, _) := scaledDiv num den q0
  if m0 ≥ Nat.pow 2 53 then q0 + 1
  else if m0 < Nat.pow 2 52 then q0 - 1
  else q0

/-- The non-negative rational `num / den` rounded to the nearest value, ties to even;
`neg` gives the sign.  A zero divisor is read as one. -/
def ofRatio (neg : Bool) (num den : Nat) : Binary64 :=
  let den := if den = 0 then 1 else den
  if num = 0 then zero neg
  else
    let q := max (normalExponent num den) (-1074)
    let (m, r, d) := scaledDiv num den q
    let m := if 2 * r > d || (2 * r == d && m % 2 == 1) then m + 1 else m
    let (m, q) := if m == Nat.pow 2 53 then (Nat.pow 2 52, q + 1) else (m, q)
    if q > 971 then infinity neg
    else if m < Nat.pow 2 52 then make neg 0 m
    else make neg (q + 1075).toNat (m - Nat.pow 2 52)

/-- A natural number rounded to the nearest value. -/
def ofNat (n : Nat) : Binary64 := ofRatio false n 1

/-- The number of decimal digits of `n`; one for zero. -/
def decimalLength (n : Nat) : Nat :=
  if n < 10 then 1 else decimalLength (n / 10) + 1
termination_by n
decreasing_by omega

/-- A decimal `digits · 10^exp` rounded to the nearest value, with the sign `neg`.  With `L`
digits the value lies in `[10^(L-1+exp), 10^(L+exp))`, so once `L + exp` is past 400 it is
infinite and once it is below -400 it is zero: no power of ten of such an exponent is formed. -/
def ofDecimal (neg : Bool) (digits : Nat) (exp : Int) : Binary64 :=
  if digits = 0 then zero neg
  else if exp + decimalLength digits > 400 then infinity neg
  else if exp + decimalLength digits < -400 then zero neg
  else ofRatio neg (digits * Nat.pow 10 exp.toNat) (Nat.pow 10 (-exp).toNat)

/-- The magnitude of a finite value as a rational `num / den`. -/
def toRatio (x : Binary64) : Nat × Nat :=
  let (m, q) := x.decode
  (m * Nat.pow 2 q.toNat, Nat.pow 2 (-q).toNat)

/-- The correctly rounded product. -/
def mul (x y : Binary64) : Binary64 :=
  let neg := x.negative != y.negative
  if x.isNaN || y.isNaN then nan
  else if x.isInfinite || y.isInfinite then
    if x.isZero || y.isZero then nan else infinity neg
  else
    let (a, b) := x.toRatio
    let (c, d) := y.toRatio
    ofRatio neg (a * c) (b * d)

/-- The correctly rounded quotient. -/
def div (x y : Binary64) : Binary64 :=
  let neg := x.negative != y.negative
  if x.isNaN || y.isNaN then nan
  else if x.isInfinite then (if y.isInfinite then nan else infinity neg)
  else if y.isInfinite then zero neg
  else if y.isZero then (if x.isZero then nan else infinity neg)
  else
    let (a, b) := x.toRatio
    let (c, d) := y.toRatio
    ofRatio neg (a * d) (b * c)

/-! ## Shortest decimal digits -/

/-- Compares `c · 10^k` with `x · 2^e`. -/
def compareScaled (c : Nat) (k : Int) (x : Nat) (e : Int) : Ordering :=
  compare (c * Nat.pow 10 k.toNat * Nat.pow 2 (-e).toNat) (x * Nat.pow 2 e.toNat * Nat.pow 10 (-k).toNat)

/-- The exponent `E` with `10^E ≤ m · 2^q < 10^(E+1)`, for `m > 0`. -/
def decimalExponent (m : Nat) (q : Int) : Int :=
  let est : Int := Int.fdiv (((Nat.log2 m : Int) + q) * 30103) 100000
  let down (e : Int) : Int := if compareScaled 1 e m q == .gt then e - 1 else e
  let up (e : Int) : Int := if compareScaled 1 (e + 1) m q == .gt then e else e + 1
  up (up (down (down est)))

/-- Removes trailing zero digits, raising the exponent for each. -/
def stripZeros (d : Nat) (k : Int) : Nat × Int :=
  go 20 d k
where
  go : Nat → Nat → Int → Nat × Int
  | 0, d, k => (d, k)
  | fuel + 1, d, k => if d > 0 && d % 10 == 0 then go fuel (d / 10) (k + 1) else (d, k)

/-- The fewest decimal digits `d` (with exponent `k`, meaning `d · 10^k`) that round back to
the positive finite value `m · 2^q`; `lowerHalf` says that the next smaller value is half as
far away as the next larger one.  Among shortest candidates the nearest one wins, a tie going
to the even one. -/
def shortestOf (m : Nat) (q : Int) (lowerHalf : Bool) : Nat × Int :=
  let e2 := q - 2
  let hi := 4 * m + 2
  let lo := if lowerHalf then 4 * m - 1 else 4 * m - 2
  let inclusive := m % 2 == 0
  let inside (d : Nat) (k : Int) : Bool :=
    let l := compareScaled d k lo e2
    let h := compareScaled d k hi e2
    (l == .gt || (inclusive && l == .eq)) && (h == .lt || (inclusive && h == .eq))
  let exp10 := decimalExponent m q
  let attempt (n : Nat) : Option (Nat × Int) :=
    let k := exp10 - n + 1
    let c := (m * Nat.pow 2 q.toNat * Nat.pow 10 (-k).toNat) / (Nat.pow 2 (-q).toNat * Nat.pow 10 k.toNat)
    match inside c k, inside (c + 1) k with
    | true, true =>
      match compareScaled (2 * c + 1) k (8 * m) e2 with
      | .gt => some (c, k)
      | .lt => some (c + 1, k)
      | .eq => some (if c % 2 == 0 then c else c + 1, k)
    | true, false => some (c, k)
    | false, true => some (c + 1, k)
    | false, false => none
  let found := (List.range 17).findSome? fun i => attempt (i + 1)
  let (d, k) := found.getD
    ((m * Nat.pow 2 q.toNat * Nat.pow 10 (16 - exp10).toNat) / (Nat.pow 2 (-q).toNat * Nat.pow 10 (exp10 - 16).toNat),
      exp10 - 16)
  stripZeros d k

/-- The shortest digits of a finite non-zero value, as a digit text and the exponent `k`
with value `digits · 10^k`. -/
def shortest (x : Binary64) : String × Int :=
  let (m, q) := x.decode
  let (d, k) := shortestOf m q (x.fraction == 0 && x.expField > 1)
  (toString d, k)

/-- `n` zero digits. -/
def zeros (n : Nat) : String := String.ofList (List.replicate n '0')

/-- Digits `s · 10^k` written out without exponent. -/
def positional (s : String) (k : Int) : String :=
  let n : Int := s.length
  let p := n + k
  if p ≤ 0 then "0." ++ zeros (-p).toNat ++ s
  else if p < n then String.ofList (s.toList.take p.toNat) ++ "." ++ String.ofList (s.toList.drop p.toNat)
  else s ++ zeros (p - n).toNat

/-- The plain text of a value: the shortest digits that read back, never in exponent
form, with no point for whole numbers; `NaN`, `inf` and `-inf` otherwise. -/
def plainText (x : Binary64) : String :=
  if x.isNaN then "NaN"
  else
    let sign := if x.negative then "-" else ""
    if x.isInfinite then sign ++ "inf"
    else if x.isZero then sign ++ "0"
    else
      let (s, k) := x.shortest
      sign ++ positional s k

/-- The plain text of a value with `.0` added where it shows no point. -/
def pointedText (x : Binary64) : String :=
  let t := x.plainText
  if x.isFinite && !t.toList.contains '.' then t ++ ".0" else t

/-- The exponent of the exponent form: `e`, then the sign (`+` for zero and above), then
the decimal digits. -/
def exponentText (e : Int) : String :=
  if 0 ≤ e then "e+" ++ toString e else "e" ++ toString e

/-- The data-interchange text of a finite value: the shortest digits, positional with at
least one fractional digit while the point stands within sixteen digits of the first digit
(and for magnitudes down to `1e-5`), exponent form `de±x` or `d.ddde±x` beyond, the sign always written. -/
def exchangeText (x : Binary64) : String :=
  let sign := if x.negative then "-" else ""
  if x.isZero then sign ++ "0.0"
  else
    let (s, k) := x.shortest
    let n : Int := s.length
    let kk := n + k
    let body :=
      if 0 ≤ k && kk ≤ 16 then s ++ zeros k.toNat ++ ".0"
      else if 0 < kk && kk ≤ 16 then
        String.ofList (s.toList.take kk.toNat) ++ "." ++ String.ofList (s.toList.drop kk.toNat)
      else if -5 < kk && kk ≤ 0 then "0." ++ zeros (-kk).toNat ++ s
      else if n == 1 then s ++ exponentText (kk - 1)
      else String.ofList (s.toList.take 1) ++ "." ++ String.ofList (s.toList.drop 1) ++
        exponentText (kk - 1)
    sign ++ body

end Binary64
end QueryShield
