/-!
# Lines, columns and digits

A printed text is a sequence of lines, each closed by a line feed. A column is filled with blanks up
to its width in characters, and hexadecimal digits with zeros up to theirs; longer entries are not
cut.
-/

namespace ApiCoverage.Text

/-- The text of a sequence of lines. -/
def unlines (lines : List String) : String :=
  String.join (lines.map fun line => line ++ "\n")

/-- The blanks that fill a text up to a width. -/
def filling (width : Nat) (text : String) : String :=
  String.ofList (List.replicate (width - text.length) ' ')

/-- A text at the left of a column. -/
def alignLeft (width : Nat) (text : String) : String :=
  text ++ filling width text

/-- A text at the right of a column. -/
def alignRight (width : Nat) (text : String) : String :=
  filling width text ++ text

/-- A number in lower-case hexadecimal, filled with zeros to at least `width` digits. -/
def hexDigits (width value : Nat) : String :=
  let digits := Nat.toDigits 16 value
  String.ofList (List.replicate (width - digits.length) '0' ++ digits)

end ApiCoverage.Text
