import ApiCoverage.Descriptor.Fault
import ApiCoverage.JvmType
import ApiCoverage.Text.Alphabetic
import ApiCoverage.Text.Blank
import ApiCoverage.Text.Numeric

/-!
# Type names of source text

A type name is a keyword or a dotted identifier, followed by one `[]` per array layer. Blank
characters may surround the name and may stand before each `[]`. An array of `void` is no type.
-/

namespace ApiCoverage.JvmType

open Text (isAlphabetic isNumeric trimChars dropBlankEnd)

/-- Whether a character may start an identifier. -/
def isIdentifierStart (char : Char) : Bool :=
  isAlphabetic char || char == '_' || char == '$'

/-- Whether a character may continue an identifier. -/
def isIdentifierPart (char : Char) : Bool :=
  isAlphabetic char || isNumeric char || char == '_' || char == '$'

/-- Whether a character sequence is an identifier. -/
def isIdentifier : List Char → Bool
  | [] => false
  | first :: rest => isIdentifierStart first && rest.all isIdentifierPart

/-- The segments between the dots of a name; there is one more segment than dots. -/
def segments (chars : List Char) : List (List Char) :=
  chars.splitOn '.'

/-- Whether a character sequence is a sequence of identifiers with dots between them. -/
def isDottedName (chars : List Char) : Bool :=
  (segments chars).all isIdentifier

/-- Takes the `[]` pairs off the end of a reversed name, with the blanks before each, and counts
them on top of `depth`. -/
def stripArrays (depth : Nat) : List Char → Nat × List Char
  | ']' :: '[' :: rest => stripArrays (depth + 1) (rest.dropWhile Text.isBlank)
  | reversed => (depth, reversed)
  termination_by reversed => reversed.length
  decreasing_by
    have shorter := (List.dropWhile_suffix Text.isBlank (l := rest)).length_le
    simp only [List.length_cons]
    omega

/-- The type that a dotted name or a keyword stands for. -/
def ofBaseName (name : String) : JvmType :=
  match Primitive.ofKeyword? name with
  | some type => .primitive type
  | none => .object name

/-- Reads a type name of source text. -/
def parseSourceName (text : String) : Except Descriptor.Fault JvmType :=
  let trimmed := trimChars text.toList
  let refusal := Descriptor.Fault.invalidTypeName (String.ofList trimmed)
  let (depth, reversed) := stripArrays 0 trimmed.reverse
  let base := reversed.reverse
  if isDottedName base then
    let type := ofBaseName (String.ofList base)
    if type.isVoid && depth > 0 then .error refusal else .ok (arrayOf depth type)
  else
    .error refusal

end ApiCoverage.JvmType
