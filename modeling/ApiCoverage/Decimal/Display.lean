import ApiCoverage.Decimal.Binary64
import ApiCoverage.Decimal.Digits

/-!
# Decimal display of binary fractions

Two displays. With one decimal, the exact value is rounded, a tie to the even digit. In shortest
form, the number is written with the fewest digits that no other number of the format is nearer to,
and among those with the digits nearest to the exact value; small and large magnitudes take an
exponent, and whole numbers keep a `.0`.
-/

namespace ApiCoverage.Decimal

/-- The exact value rounded to one decimal. -/
def oneDecimal (number : Binary64) : String :=
  let (numerator, denominator) := number.toRatio
  let tenths := roundedQuotient (10 * numerator) denominator
  s!"{tenths / 10}.{tenths % 10}"

/-- The number of digits before the point of a positive ratio; for a ratio below one, minus the
number of zeros after the point. -/
def pointPosition (numerator denominator : Nat) : Int :=
  let whole := numerator / denominator
  if whole > 0 then (Nat.toDigits 10 whole).length
  else 1 - (Nat.toDigits 10 (denominator / numerator)).length

/-- Whether a ratio is read as a given number: it lies between the midpoints to the neighbours of
the number, which are taken here in quarters of a unit of the mantissa and belong to the number when
its mantissa is even. The neighbour below the smallest mantissa is half as far away. -/
def readsBack (number : Binary64) (numerator denominator : Nat) : Bool :=
  let below := if number.mantissa = Binary64.leastMantissa then 1 else 2
  let (low, lowDivisor) := Binary64.scale (4 * number.mantissa - below) 4 number.exponent
  let (high, highDivisor) := Binary64.scale (4 * number.mantissa + 2) 4 number.exponent
  if number.mantissa % 2 = 0 then
    low * denominator ≤ numerator * lowDivisor && numerator * highDivisor ≤ high * denominator
  else
    low * denominator < numerator * lowDivisor && numerator * highDivisor < high * denominator

/-- The nearer neighbour with `count` digits that reads back as the number. -/
def digitsAt? (number : Binary64) (count : Nat) : Option Digits :=
  let (numerator, denominator) := number.toRatio
  let exponent := pointPosition numerator denominator - count
  let (scaled, divisor) := scaleTen numerator denominator (-exponent)
  let nearest := roundedQuotient scaled divisor
  let floor := scaled / divisor
  let other := if nearest = floor then floor + 1 else floor
  let candidates := [nearest, other].map (Digits.mk · exponent)
  candidates.find? fun candidate =>
    let (value, unit) := scaleTen candidate.digits 1 exponent
    readsBack number value unit

/-- The fewest digits that read back as a positive number. -/
def shortestDigits (number : Binary64) : Digits :=
  (((List.range 17).map (· + 1)).findSome? (digitsAt? number)).getD ⟨0, 0⟩

/-- Digits without the zeros at the end of their number. -/
def Digits.strip (digits : Digits) : Digits :=
  let text := Nat.toDigits 10 digits.digits
  let zeros := (text.reverse.takeWhile (· == '0')).length
  ⟨digits.digits / Nat.pow 10 zeros, digits.exponent + zeros⟩

/-- Writes digits: positional from `0.00001` up to 16 digits before the point, else with an
exponent. -/
def Digits.display (digits : Digits) : String :=
  let text := Nat.toDigits 10 digits.digits
  let point := digits.exponent + text.length
  if 0 ≤ digits.exponent && point ≤ 16 then
    String.ofList (text ++ List.replicate digits.exponent.toNat '0') ++ ".0"
  else if 0 < point && point ≤ 16 then
    String.ofList (text.take point.toNat) ++ "." ++ String.ofList (text.drop point.toNat)
  else if -5 < point && point ≤ 0 then
    "0." ++ String.ofList (List.replicate (-point).toNat '0' ++ text)
  else
    let mantissa := match text with
      | [] => ""
      | [digit] => String.ofList [digit]
      | first :: rest => String.ofList (first :: '.' :: rest)
    s!"{mantissa}e{point - 1}"

/-- The shortest form of a number. -/
def shortest (number : Binary64) : String :=
  if number.mantissa = 0 then "0.0" else (shortestDigits number).strip.display

end ApiCoverage.Decimal
