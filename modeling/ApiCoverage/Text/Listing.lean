import ApiCoverage.Text.Blank

/-!
# Line-oriented lists

A list file has one entry per line. Lines end at a line feed, which may follow a carriage return;
entries are trimmed, and blank lines and lines whose trimmed text starts with `#` are skipped.
-/

namespace ApiCoverage.Text

/-- A line without the carriage return at its end, if it has one. -/
def dropCarriageReturn (line : List Char) : List Char :=
  match line.reverse with
  | '\r' :: rest => rest.reverse
  | _ => line

/-- The lines of a text, where `current` holds the open line in reverse and `done` the closed ones
in reverse. Only a line that a line feed closes loses its carriage return. -/
def linesFrom (current : List Char) (done : List (List Char)) : List Char → List (List Char)
  | [] => (if current.isEmpty then done else current.reverse :: done).reverse
  | '\n' :: rest => linesFrom [] (dropCarriageReturn current.reverse :: done) rest
  | char :: rest => linesFrom (char :: current) done rest

/-- The lines of a text without their ends; a final line feed opens no further line. -/
def lines (text : String) : List (List Char) :=
  linesFrom [] [] text.toList

/-- Whether a trimmed line names something: it is neither empty nor a `#` comment. -/
def isEntry : List Char → Bool
  | [] => false
  | '#' :: _ => false
  | _ :: _ => true

/-- The entries of a list file in the order in which they stand. -/
def entries (text : String) : List String :=
  (((lines text).map trimChars).filter isEntry).map String.ofList

end ApiCoverage.Text
