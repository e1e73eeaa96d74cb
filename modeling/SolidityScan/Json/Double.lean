/-
# Double-precision numbers

Finite binary numbers with 53 bits of precision, held exactly.  Products and quotients by powers
of ten are rounded to the nearest such number, a tie going to the even mantissa, and a number is
written with the fewest decimal digits that read back as the same number.
-/

namespace SolidityScan

/-- The number `mantissa * 2 ^ exponent`, with its sign. -/
structure Double where
  negative : Bool
  mantissa : Nat
  exponent : Int
deriving DecidableEq, Repr

namespace Double

/-- The least exponent of a double. -/
def minExponent : Int := -1074

/-- The greatest exponent of a double. -/
def maxExponent : Int := 971

/-- Positive zero. -/
def zero : Double := ⟨false, 0, minExponent⟩

/-- The same number with the other sign. -/
def neg (x : Double) : Double :=
  { x with negative := !x.negative }

/-! ## Rounding -/

/-- The fraction `num / den` scaled by `2 ^ (-e)`, as numerator and denominator. -/
def scaled (num den : Nat) (e : Int) : Nat × Nat :=
  if 0 ≤ e then (num, den * Nat.pow 2 e.toNat) else (num * Nat.pow 2 (-e).toNat, den)

/-- The exponent of the leading bit of a positive fraction. -/
def leadingBit (num den : Nat) : Int :=
  let e : Int := (num.log2 : Int) - (den.log2 : Int)
  let (n, d) := scaled num den e
  if d ≤ n then e else e - 1

/-- The integer nearest to `n / d`; a tie goes to the even one. -/
def nearest (n d : Nat) : Nat :=
  let q := n / d
  let twice := 2 * (n % d)
  if twice < d then q else if d < twice then q + 1 else q + q % 2

/-- The double nearest to a fraction; `none` if it is too large for one. -/
def round? (num den : Nat) : Option Double :=
  if num = 0 then some zero
  else
    let e := max (leadingBit num den - 52) minExponent
    let (n, d) := scaled num den e
    let m := nearest n d
    let (m, e) := if m = Nat.pow 2 53 then (Nat.pow 2 52, e + 1) else (m, e)
    if e ≤ maxExponent then some ⟨false, m, e⟩ else none

/-- The magnitude as a fraction. -/
def ratio (x : Double) : Nat × Nat :=
  scaled x.mantissa 1 (-x.exponent)

/-- The power of ten nearest among the doubles; exponents up to 308 have one. -/
def powerOfTen (k : Nat) : Double :=
  (round? (Nat.pow 10 k) 1).getD zero

/-- The rounded product of two magnitudes. -/
def mul? (x y : Double) : Option Double :=
  round? (x.ratio.1 * y.ratio.1) (x.ratio.2 * y.ratio.2)

/-- The rounded quotient of two magnitudes; the divisor is not zero. -/
def div? (x y : Double) : Option Double :=
  round? (x.ratio.1 * y.ratio.2) (x.ratio.2 * y.ratio.1)

/-- The largest power of ten that one step of scaling takes. -/
def largestPower : Nat := 308

/-- Divides by a power of ten, in steps that are each rounded. -/
def scaleDown (x : Double) (k : Nat) : Double :=
  if k ≤ largestPower then (x.div? (powerOfTen k)).getD zero
  else if x.mantissa = 0 then x
  else scaleDown ((x.div? (powerOfTen largestPower)).getD zero) (k - largestPower)
termination_by k
decreasing_by
  simp only [largestPower] at *
  omega

/-- The double for `significand * 10 ^ exponent`: the significand is rounded, and then scaled;
`none` if the result is too large. -/
def ofDecimal? (significand : Nat) (exponent : Int) : Option Double := do
  let x ← round? significand 1
  if exponent < 0 then
    return x.scaleDown (-exponent).toNat
  else if exponent ≤ largestPower then
    x.mul? (powerOfTen exponent.toNat)
  else if x.mantissa = 0 then
    return x
  else
    none

/-! ## Shortest decimal form -/

/-- Whether the multiple `c * 10 ^ k` rounds to the double `m * 2 ^ e`.  Halfway points belong to
the even mantissa, and below a power of two the neighbour is half as far away. -/
def roundsTo (m : Nat) (e : Int) (c : Nat) (k : Int) : Bool :=
  let below := if m = Nat.pow 2 52 ∧ minExponent < e then 4 * m - 1 else 4 * m - 2
  let above := 4 * m + 2
  let (n, d) := scaled c 1 (e - 2)
  let (n, d) := if 0 ≤ k then (n * Nat.pow 10 k.toNat, d) else (n, d * Nat.pow 10 (-k).toNat)
  if m % 2 = 0 then below * d ≤ n && n ≤ above * d else below * d < n && n < above * d

/-- The multiple of `10 ^ k` nearest to the magnitude among those that read back as it. -/
def multiple? (x : Double) (k : Int) : Option Nat :=
  let (n, d) := x.ratio
  let (n, d) := if 0 ≤ k then (n, d * Nat.pow 10 k.toNat) else (n * Nat.pow 10 (-k).toNat, d)
  let q := n / d
  match roundsTo x.mantissa x.exponent q k, roundsTo x.mantissa x.exponent (q + 1) k with
  | true, true => some (nearest n d)
  | true, false => some q
  | false, true => some (q + 1)
  | false, false => none

/-- The digits and the power of ten of the coarsest decimal that reads back as the magnitude. -/
def shortest (x : Double) : Nat × Int :=
  let powers := (List.range 640).map fun i : Nat => (309 : Int) - (i : Int)
  (powers.findSome? fun k => (x.multiple? k).map (·, k)).getD (0, 0)

/-- Numbers up to this many digits before the point are written out in full. -/
def longestWhole : Int := 16

/-- Numbers below one with fewer leading zeros than this are written out in full. -/
def fewestZeros : Int := -5

/-- The magnitude in decimal: positional near one, otherwise with a signed exponent; a point is
always shown in positional form. -/
def magnitudeText (x : Double) : String :=
  if x.mantissa = 0 then "0.0"
  else
    let (n, k) := x.shortest
    let digits := Nat.toDigits 10 n
    let point : Int := digits.length + k
    let zeros (m : Int) : List Char := List.replicate m.toNat '0'
    if 0 ≤ k ∧ point ≤ longestWhole then
      String.ofList (digits ++ zeros k ++ ['.', '0'])
    else if 0 < point ∧ point ≤ longestWhole then
      String.ofList (digits.take point.toNat ++ '.' :: digits.drop point.toNat)
    else if fewestZeros < point ∧ point ≤ 0 then
      String.ofList ('0' :: '.' :: (zeros (-point) ++ digits))
    else
      let lead := match digits with
        | first :: second :: rest => first :: '.' :: second :: rest
        | single => single
      let sign := if point ≤ 0 then "-" else "+"
      String.ofList lead ++ "e" ++ sign ++ toString (point - 1).natAbs

/-- The number in decimal. -/
def text (x : Double) : String :=
  if x.negative then "-" ++ x.magnitudeText else x.magnitudeText

end Double

end SolidityScan
