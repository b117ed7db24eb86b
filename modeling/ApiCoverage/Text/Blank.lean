/-!
# Blank characters and trimming

A character is blank when it has the Unicode property `White_Space`. Trimming removes blank
characters at an end of a text and nothing else.
-/

namespace ApiCoverage.Text

/-- The characters with the Unicode property `White_Space`. -/
def isBlank (char : Char) : Bool :=
  let code := char.toNat
  (9 ≤ code && code ≤ 13) || code == 0x20 || code == 0x85 || code == 0xA0 || code == 0x1680 ||
    (0x2000 ≤ code && code ≤ 0x200A) || code == 0x2028 || code == 0x2029 || code == 0x202F ||
    code == 0x205F || code == 0x3000

/-- The characters without the blank ones at the front. -/
def dropBlank (chars : List Char) : List Char :=
  chars.dropWhile isBlank

/-- The characters without the blank ones at the back. -/
def dropBlankEnd (chars : List Char) : List Char :=
  (dropBlank chars.reverse).reverse

/-- The characters without the blank ones at either end. -/
def trimChars (chars : List Char) : List Char :=
  dropBlankEnd (dropBlank chars)

/-- A text without the blank characters at its ends. -/
def trim (text : String) : String :=
  String.ofList (trimChars text.toList)

end ApiCoverage.Text
