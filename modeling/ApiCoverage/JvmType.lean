/-!
# Types of the virtual machine

The types that a method signature can mention, with their one-letter codes, their keywords in
source text, and their display form. Reference types are named by their dotted binary name.
-/

namespace ApiCoverage

/-- A primitive type or `void`. -/
inductive Primitive where
  | void
  | boolean
  | byte
  | char
  | short
  | int
  | long
  | float
  | double
  deriving DecidableEq, Repr

namespace Primitive

/-- Every primitive type, with `void` first. -/
def all : List Primitive :=
  [void, boolean, byte, char, short, int, long, float, double]

/-- The letter that stands for the type in a descriptor. -/
def code : Primitive → Char
  | void => 'V'
  | boolean => 'Z'
  | byte => 'B'
  | char => 'C'
  | short => 'S'
  | int => 'I'
  | long => 'J'
  | float => 'F'
  | double => 'D'

/-- The word that stands for the type in source text. -/
def keyword : Primitive → String
  | void => "void"
  | boolean => "boolean"
  | byte => "byte"
  | char => "char"
  | short => "short"
  | int => "int"
  | long => "long"
  | float => "float"
  | double => "double"

/-- The type with a given descriptor letter. -/
def ofCode? (letter : Char) : Option Primitive :=
  all.find? fun type => type.code == letter

/-- The type with a given keyword. -/
def ofKeyword? (word : String) : Option Primitive :=
  all.find? fun type => type.keyword == word

theorem ofCode?_code (type : Primitive) : ofCode? type.code = some type := by
  cases type <;> rfl

theorem ofCode?_eq_some_iff {letter : Char} {type : Primitive} :
    ofCode? letter = some type ↔ letter = type.code := by
  constructor
  · intro found
    have hit := List.find?_some found
    exact (beq_iff_eq.1 hit).symm
  · rintro rfl
    exact ofCode?_code type

theorem ofKeyword?_eq_some_iff {word : String} {type : Primitive} :
    ofKeyword? word = some type ↔ word = type.keyword := by
  constructor
  · intro found
    have hit := List.find?_some found
    exact (beq_iff_eq.1 hit).symm
  · rintro rfl
    cases type <;> rfl

end Primitive

/-- A type in a method signature. -/
inductive JvmType where
  | primitive (type : Primitive)
  /-- A class or interface, by its dotted binary name. -/
  | object (name : String)
  | array (element : JvmType)
  deriving DecidableEq, Repr

namespace JvmType

/-- The type of methods that return nothing. -/
abbrev void : JvmType := .primitive .void

/-- Whether the type is `void` itself. -/
def isVoid : JvmType → Bool
  | .primitive .void => true
  | _ => false

@[simp] theorem isVoid_iff (type : JvmType) : type.isVoid = true ↔ type = void := by
  cases type with
  | primitive primitive => cases primitive <;> simp [isVoid, void]
  | object name => simp [isVoid]
  | array element => simp [isVoid]

/-- The array type of a given depth over a type; depth zero is the type itself. -/
def arrayOf : Nat → JvmType → JvmType
  | 0, type => type
  | depth + 1, type => arrayOf depth (.array type)

/-- The layers of an array can be counted from the outside. -/
theorem arrayOf_succ (depth : Nat) (type : JvmType) :
    arrayOf (depth + 1) type = .array (arrayOf depth type) := by
  induction depth generalizing type with
  | zero => rfl
  | succ depth ih => rw [arrayOf, ih, arrayOf]

/-- The number of array layers of a type and what they hold. -/
def unwrap : JvmType → Nat × JvmType
  | .array element =>
      let (depth, base) := element.unwrap
      (depth + 1, base)
  | type => (0, type)

/-- The form in which a type is shown: keyword, dotted name, and `[]` per array layer. -/
def display : JvmType → String
  | .primitive type => type.keyword
  | .object name => name
  | .array element => element.display ++ "[]"

/-- The part of a dotted name after its last dot. -/
def lastSegment (name : String) : String :=
  String.ofList (name.toList.reverse.takeWhile (· != '.')).reverse

/-- The display form with the packages of reference types left out. -/
def simpleDisplay : JvmType → String
  | .primitive type => type.keyword
  | .object name => lastSegment name
  | .array element => element.simpleDisplay ++ "[]"

end JvmType

end ApiCoverage
