import LicenseSurvey.Text.Basic

/-! # Shortest decimals

A binary fraction of 53 significant bits is written with the fewest decimal digits
that read back as the same fraction. All computing is exact: a fraction is a ratio
of natural numbers, and the numbers that round to it form an interval with such
ends.
-/

namespace LicenseSurvey

structure Ratio where
  numerator : Nat
  denominator : Nat
deriving DecidableEq, Repr

namespace Ratio

def timesPowerOfTen (ratio : Ratio) (exponent : Int) : Ratio :=
  ⟨ratio.numerator * Nat.pow 10 exponent.toNat,
    ratio.denominator * Nat.pow 10 (-exponent).toNat⟩

def timesPowerOfTwo (ratio : Ratio) (exponent : Int) : Ratio :=
  ⟨ratio.numerator * Nat.pow 2 exponent.toNat,
    ratio.denominator * Nat.pow 2 (-exponent).toNat⟩

def floor (ratio : Ratio) : Nat := ratio.numerator / ratio.denominator

def below (left right : Ratio) : Bool :=
  left.numerator * right.denominator < right.numerator * left.denominator

def round (ratio : Ratio) : Nat :=
  let whole := ratio.floor
  let twice := 2 * (ratio.numerator % ratio.denominator)
  if twice < ratio.denominator then whole
  else if ratio.denominator < twice then whole + 1
  else whole + whole % 2

end Ratio

/-- A number `mantissa * 2 ^ exponent` whose mantissa has 53 binary digits. -/
structure BinaryFraction where
  mantissa : Nat
  exponent : Int
deriving DecidableEq, Repr

namespace BinaryFraction

def leastMantissa : Nat := 0x10000000000000

def ofRatio (ratio : Ratio) : BinaryFraction :=
  let guess : Int := (ratio.numerator.log2 : Int) - ratio.denominator.log2 - 52
  let exponent :=
    if (ratio.timesPowerOfTwo (-guess)).floor < leastMantissa then guess - 1 else guess
  let mantissa := (ratio.timesPowerOfTwo (-exponent)).round
  if mantissa = 2 * leastMantissa then ⟨leastMantissa, exponent + 1⟩
  else ⟨mantissa, exponent⟩

def quarters (fraction : BinaryFraction) (count : Nat) : Ratio :=
  Ratio.timesPowerOfTwo ⟨count, 1⟩ (fraction.exponent - 2)

def ratio (fraction : BinaryFraction) : Ratio := fraction.quarters (4 * fraction.mantissa)

/-- Whether a ratio rounds to the fraction. The ends of the interval belong to it
when the mantissa is even; below a power of two the interval is half as wide. -/
def covers (fraction : BinaryFraction) (ratio : Ratio) : Bool :=
  let value := 4 * fraction.mantissa
  let low :=
    fraction.quarters (if fraction.mantissa = leastMantissa then value - 1 else value - 2)
  let high := fraction.quarters (value + 2)
  if fraction.mantissa % 2 = 0 then !ratio.below low && !high.below ratio
  else low.below ratio && ratio.below high

end BinaryFraction

/-- The number `digits * 10 ^ exponent`. -/
structure Decimal where
  digits : Nat
  exponent : Int
deriving DecidableEq, Repr

namespace Decimal

def ratio (decimal : Decimal) : Ratio :=
  Ratio.timesPowerOfTen ⟨decimal.digits, 1⟩ decimal.exponent

def leadingPower (ratio : Ratio) : Int :=
  let shift := (Nat.toDigits 10 ratio.denominator).length
  let digits := Nat.toDigits 10 (ratio.timesPowerOfTen shift).floor
  (digits.length : Int) - 1 - shift

def neighbour? (fraction : BinaryFraction) (exponent : Int) : Option Decimal :=
  let scaled := fraction.ratio.timesPowerOfTen (-exponent)
  let lower : Decimal := ⟨scaled.floor, exponent⟩
  let upper : Decimal := ⟨scaled.floor + 1, exponent⟩
  match fraction.covers lower.ratio, fraction.covers upper.ratio with
  | true, true => some ⟨scaled.round, exponent⟩
  | true, false => some lower
  | false, true => some upper
  | false, false => none

def withoutZeros : (fuel : Nat) → Decimal → Decimal
  | 0, decimal => decimal
  | fuel + 1, decimal =>
      if decimal.digits % 10 = 0 then
        withoutZeros fuel ⟨decimal.digits / 10, decimal.exponent + 1⟩
      else
        decimal

/-- The decimal with the fewest digits that rounds to a binary fraction. Seventeen
digits are always enough. -/
def shortest (fraction : BinaryFraction) : Decimal :=
  let leading := leadingPower fraction.ratio
  let found := (List.range 17).findSome? fun (count : Nat) =>
    neighbour? fraction (leading - count)
  withoutZeros 17 (found.getD ⟨0, 0⟩)

end Decimal

/-! ## Notation of decimals -/

structure DecimalStyle where
  /-- The least place of the point, counted from the first digit, for which leading
  zeros are written. -/
  leastPoint : Int
  /-- The greatest place of the point for which no power of ten is written. -/
  greatestPoint : Int
  /-- Stands between digits and the power of ten. -/
  powerMark : Char
deriving DecidableEq, Repr

def Text.ofInt (number : Int) : Text :=
  (if number < 0 then ['-'] else []) ++ Nat.toDigits 10 number.natAbs

def DecimalStyle.write (style : DecimalStyle) (decimal : Decimal) : Text :=
  let digits := Nat.toDigits 10 decimal.digits
  let point := digits.length + decimal.exponent
  if style.greatestPoint < point ∨ point < style.leastPoint then
    let later := digits.drop 1
    digits.take 1 ++ (if later = [] then [] else '.' :: later) ++
      style.powerMark :: Text.ofInt (point - 1)
  else if point ≤ 0 then
    ['0', '.'] ++ List.replicate (-point).toNat '0' ++ digits
  else if 0 ≤ decimal.exponent then
    digits ++ List.replicate decimal.exponent.toNat '0' ++ ['.', '0']
  else
    digits.take point.toNat ++ '.' :: digits.drop point.toNat

end LicenseSurvey
