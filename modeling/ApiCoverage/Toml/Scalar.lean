import ApiCoverage.Decimal.Digits
import ApiCoverage.Toml.Value

/-!
# Numbers and moments

The grammar of integers, floats, dates and times. Each reader takes the whole text of a value.
-/

namespace ApiCoverage.Toml.Scalar

open Decimal (Digits)

/-- Splits an optional sign off a number: whether it is negative, and the rest. -/
def splitSign : List Char → Bool × List Char
  | '+' :: rest => (false, rest)
  | '-' :: rest => (true, rest)
  | chars => (false, chars)

/-- The value of a digit in a base up to sixteen. -/
def digitValue? (base : Nat) (char : Char) : Option Nat :=
  let value :=
    if char.isDigit then char.toNat - '0'.toNat
    else if 'a' ≤ char && char ≤ 'f' then char.toNat - 'a'.toNat + 10
    else if 'A' ≤ char && char ≤ 'F' then char.toNat - 'A'.toNat + 10
    else base
  if value < base then some value else none

/-- The number that digits denote, where an underscore may stand between two digits; `afterDigit`
tells whether a digit came before. -/
def digits? (base : Nat) (value : Nat) (afterDigit : Bool) : List Char → Option Nat
  | [] => if afterDigit then some value else none
  | '_' :: rest => if afterDigit then digits? base value false rest else none
  | char :: rest =>
      match digitValue? base char with
      | some digit => digits? base (value * base + digit) true rest
      | none => none

/-- A decimal number without needless zeros at the front. -/
def decimal? (chars : List Char) : Option Nat :=
  match chars with
  | ['0'] => some 0
  | '0' :: _ => none
  | _ => digits? 10 0 false chars

/-- A number that fits a signed 64-bit word. -/
def bounded? (value : Int) : Option Int :=
  if -0x8000000000000000 ≤ value && value < 0x8000000000000000 then some value else none

/-- An integer. -/
def integer? (chars : List Char) : Option Int :=
  match chars with
  | '0' :: 'x' :: rest => (digits? 16 0 false rest).bind fun value => bounded? value
  | '0' :: 'o' :: rest => (digits? 8 0 false rest).bind fun value => bounded? value
  | '0' :: 'b' :: rest => (digits? 2 0 false rest).bind fun value => bounded? value
  | _ =>
      let (negative, rest) := splitSign chars
      (decimal? rest).bind fun value => bounded? (if negative then -(value : Int) else value)

/-- The exponent of a float, from its `e` on. -/
def exponent? (chars : List Char) : Option Int :=
  match chars with
  | mark :: rest =>
      if mark == 'e' || mark == 'E' then
        let (negative, power) := splitSign rest
        (digits? 10 0 false power).map fun value => if negative then -(value : Int) else value
      else none
  | [] => none

/-- The digits and underscores at the front of a text. -/
def digitRun (chars : List Char) : List Char :=
  chars.takeWhile fun char => char.isDigit || char == '_'

/-- The number that a float without a sign denotes: whole digits, and then a fraction, an exponent
or both. -/
def magnitude? (chars : List Char) : Option Digits := do
  let whole := digitRun chars
  let _ ← decimal? whole
  match chars.drop whole.length with
  | '.' :: tail =>
      let places := digitRun tail
      let _ ← digits? 10 0 false places
      let digits ← digits? 10 0 false (whole ++ places)
      let exponent ← match tail.drop places.length with
        | [] => some 0
        | rest => exponent? rest
      return ⟨digits, exponent - (places.countP Char.isDigit : Nat)⟩
  | rest => return ⟨← digits? 10 0 false whole, ← exponent? rest⟩

/-- Whether a text is a float. A positive number must not be too large for a 64-bit float, while a
negative one may be, and the words for infinity stand for themselves. -/
def isFloat (chars : List Char) : Bool :=
  let (negative, rest) := splitSign chars
  if rest == ['i', 'n', 'f'] || rest == ['n', 'a', 'n'] then true
  else
    match magnitude? rest with
    | some number => negative || !number.overflows
    | none => false

/-- A number of exactly as many digits as the text is long. -/
def fixed? (chars : List Char) : Option Nat :=
  if chars.all Char.isDigit then digits? 10 0 false chars else none

/-- The number of days of a month. -/
def daysIn (year month : Nat) : Nat :=
  if month == 2 then
    if year % 4 == 0 && (year % 100 != 0 || year % 400 == 0) then 29 else 28
  else if month == 4 || month == 6 || month == 9 || month == 11 then 30
  else 31

/-- Whether a text is a calendar date. -/
def isDate (chars : List Char) : Bool :=
  match chars with
  | [y1, y2, y3, y4, '-', m1, m2, '-', d1, d2] =>
      match fixed? [y1, y2, y3, y4], fixed? [m1, m2], fixed? [d1, d2] with
      | some year, some month, some day =>
          1 ≤ month && month ≤ 12 && 1 ≤ day && day ≤ daysIn year month
      | _, _, _ => false
  | _ => false

/-- Whether a text is hours and minutes. -/
def isHourMinute (chars : List Char) : Bool :=
  match chars with
  | [h1, h2, ':', m1, m2] =>
      match fixed? [h1, h2], fixed? [m1, m2] with
      | some hour, some minute => hour ≤ 23 && minute ≤ 59
      | _, _ => false
  | _ => false

/-- Whether a text is a time of day, with seconds and perhaps a fraction of them. -/
def isTime (chars : List Char) : Bool :=
  isHourMinute (chars.take 5) &&
    match chars.drop 5 with
    | ':' :: s1 :: s2 :: fraction =>
        (match fixed? [s1, s2] with
          | some second => second ≤ 60
          | none => false) &&
          match fraction with
          | [] => true
          | '.' :: digits => !digits.isEmpty && digits.all Char.isDigit
          | _ => false
    | _ => false

/-- Whether a text is a time of day with the distance from universal time. -/
def isZonedTime (chars : List Char) : Bool :=
  let time := chars.takeWhile fun char => char.isDigit || char == ':' || char == '.'
  isTime time &&
    match chars.drop time.length with
    | ['Z'] => true
    | ['z'] => true
    | '+' :: distance => isHourMinute distance
    | '-' :: distance => isHourMinute distance
    | _ => false

/-- Whether a text is a date, a time, or both with a letter or a space between them. -/
def isMoment (chars : List Char) : Bool :=
  isDate chars || isTime chars ||
    match chars.drop 10 with
    | separator :: time =>
        isDate (chars.take 10) && (separator == 'T' || separator == 't' || separator == ' ') &&
          (isTime time || isZonedTime time)
    | [] => false

/-- The number or moment that a text denotes. -/
def ofText? (chars : List Char) : Option Value :=
  match integer? chars with
  | some value => some (.integer value)
  | none =>
      if isFloat chars then some (.float (String.ofList chars))
      else if isMoment chars then some (.moment (String.ofList chars))
      else none

/-- Whether a character may occur in a number or a moment. -/
def isScalarChar (char : Char) : Bool :=
  char.isAlphanum || char == '_' || char == '+' || char == '-' || char == '.' || char == ':'

/-- Reads a number or a moment. A date and a time may have one space between them. -/
def read (chars : List Char) : Option (Value × List Char) :=
  let token := chars.takeWhile isScalarChar
  let rest := chars.drop token.length
  let (token, rest) := match rest with
    | ' ' :: next :: after =>
        if isDate token && next.isDigit then
          let time := (next :: after).takeWhile isScalarChar
          (token ++ ' ' :: time, (next :: after).drop time.length)
        else (token, rest)
    | _ => (token, rest)
  (ofText? token).map fun value => (value, rest)

end ApiCoverage.Toml.Scalar
