/-!
# Decimal numbers

Decimal numbers as digits with a power of ten, and the question whether such a number is too large
for the 64-bit binary floating-point format.
-/

namespace ApiCoverage.Decimal

/-- The number `digits * 10 ^ exponent`. -/
structure Digits where
  digits : Nat
  exponent : Int
  deriving DecidableEq, Repr

/-- Multiplies a ratio by a power of ten. -/
def scaleTen (numerator denominator : Nat) : Int → Nat × Nat
  | .ofNat power => (numerator * Nat.pow 10 power, denominator)
  | .negSucc power => (numerator, denominator * Nat.pow 10 (power + 1))

namespace Digits

/-- The least number that is rounded up to infinity. It lies half a unit of the last place above
the largest number of the format. -/
def overflowBound : Nat :=
  (Nat.pow 2 54 - 1) * Nat.pow 2 970

/-- The number of digits before the point of the overflow bound. -/
def overflowPlaces : Int := 309

/-- Whether a number is rounded to infinity. Numbers that are shorter or longer than the bound need
no exact comparison. -/
def overflows (number : Digits) : Bool :=
  let places := number.exponent + (Nat.toDigits 10 number.digits).length
  if number.digits = 0 || places < overflowPlaces then false
  else if overflowPlaces < places then true
  else
    let (numerator, denominator) := scaleTen number.digits 1 number.exponent
    overflowBound * denominator ≤ numerator

end Digits

end ApiCoverage.Decimal
