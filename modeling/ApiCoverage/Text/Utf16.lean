/-!
# Text as 16-bit code units

A character beyond the basic plane takes two code units, a high surrogate and a low one; every
other character is its own unit. A sequence in which a surrogate lacks its partner is no text.
-/

namespace ApiCoverage.Text.Utf16

/-- Whether a unit is the first half of a character. -/
def isHigh (unit : UInt16) : Bool :=
  0xD800 ≤ unit && unit < 0xDC00

/-- Whether a unit is the second half of a character. -/
def isLow (unit : UInt16) : Bool :=
  0xDC00 ≤ unit && unit < 0xE000

/-- The character that two halves form. -/
def join (high low : UInt16) : Char :=
  Char.ofNat (0x10000 + (high.toNat - 0xD800) * 0x400 + (low.toNat - 0xDC00))

/-- The code units of a character. -/
def encodeChar (char : Char) : List UInt16 :=
  let code := char.toNat
  if code < 0x10000 then [UInt16.ofNat code]
  else
    [UInt16.ofNat (0xD800 + (code - 0x10000) / 0x400),
      UInt16.ofNat (0xDC00 + (code - 0x10000) % 0x400)]

/-- The code units of a character sequence. -/
def encode (chars : List Char) : List UInt16 :=
  chars.flatMap encodeChar

/-- The characters of a unit sequence, after those in `done`, which stand in reverse. -/
def decodeOnto (done : List Char) : List UInt16 → Option (List Char)
  | [] => some done.reverse
  | [unit] =>
      if isHigh unit || isLow unit then none
      else some (Char.ofNat unit.toNat :: done).reverse
  | unit :: next :: rest =>
      if isHigh unit then
        if isLow next then decodeOnto (join unit next :: done) rest else none
      else if isLow unit then none
      else decodeOnto (Char.ofNat unit.toNat :: done) (next :: rest)

/-- The characters of a unit sequence, if it is well formed. -/
def decode? (units : List UInt16) : Option (List Char) :=
  decodeOnto [] units

end ApiCoverage.Text.Utf16
