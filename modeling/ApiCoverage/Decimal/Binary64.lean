/-!
# Binary fractions of 53 bits

The non-negative numbers of the 64-bit binary floating-point format, in exact integer arithmetic. A
ratio is rounded to the nearest such number, and a tie goes to the one with the even last bit. The
numbers that this project forms are neither tiny nor huge, so the format's limits on exponents play
no part.
-/

namespace ApiCoverage.Decimal

/-- The number `mantissa * 2 ^ exponent`. Zero has mantissa zero; every other mantissa has exactly
53 bits. -/
structure Binary64 where
  mantissa : Nat
  exponent : Int
  deriving DecidableEq, Repr

/-- A quotient rounded to the nearest natural number, a tie to the even one. -/
def roundedQuotient (numerator denominator : Nat) : Nat :=
  let quotient := numerator / denominator
  let rest := numerator % denominator
  if 2 * rest < denominator then quotient
  else if denominator < 2 * rest then quotient + 1
  else quotient + quotient % 2

namespace Binary64

/-- The smallest mantissa of 53 bits. -/
def leastMantissa : Nat := 0x10000000000000

/-- Multiplies a ratio by a power of two. -/
def scale (numerator denominator : Nat) : Int → Nat × Nat
  | .ofNat power => (numerator * Nat.pow 2 power, denominator)
  | .negSucc power => (numerator, denominator * Nat.pow 2 (power + 1))

/-- The exponent at which the whole part of a positive ratio has 53 bits. -/
def exponentFor (numerator denominator : Nat) : Int :=
  let estimate := (Nat.log2 numerator : Int) - Nat.log2 denominator - 52
  let (scaled, divisor) := scale numerator denominator (-estimate)
  if scaled / divisor < leastMantissa then estimate - 1 else estimate

/-- The number nearest to a ratio. -/
def ofRatio (numerator denominator : Nat) : Binary64 :=
  if numerator = 0 then ⟨0, 0⟩
  else
    let exponent := exponentFor numerator denominator
    let (scaled, divisor) := scale numerator denominator (-exponent)
    let mantissa := roundedQuotient scaled divisor
    if mantissa = 2 * leastMantissa then ⟨leastMantissa, exponent + 1⟩ else ⟨mantissa, exponent⟩

/-- The number nearest to a natural number. -/
def ofNat (value : Nat) : Binary64 :=
  ofRatio value 1

/-- The number as an exact ratio. -/
def toRatio (number : Binary64) : Nat × Nat :=
  scale number.mantissa 1 number.exponent

/-- The rounded quotient of two numbers. -/
def div (first second : Binary64) : Binary64 :=
  let (numerator, denominator) := first.toRatio
  let (otherNumerator, otherDenominator) := second.toRatio
  ofRatio (numerator * otherDenominator) (denominator * otherNumerator)

/-- The rounded product of two numbers. -/
def mul (first second : Binary64) : Binary64 :=
  let (numerator, denominator) := first.toRatio
  let (otherNumerator, otherDenominator) := second.toRatio
  ofRatio (numerator * otherNumerator) (denominator * otherDenominator)

/-- The 64-bit pattern of a number: biased exponent, then the mantissa without its first bit. -/
def bits (number : Binary64) : Nat :=
  if number.mantissa = 0 then 0
  else (number.exponent + 1075).toNat * leastMantissa + (number.mantissa - leastMantissa)

end Binary64

end ApiCoverage.Decimal
