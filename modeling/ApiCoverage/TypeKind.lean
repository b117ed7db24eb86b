/-!
# Kinds of declared types

Whether a type is a class, an interface or an annotation type. The words are those of declaration
files.
-/

namespace ApiCoverage

/-- The kind of a declared type. -/
inductive TypeKind where
  | classType
  | interfaceType
  | annotationType
  deriving DecidableEq, Repr, Inhabited

namespace TypeKind

/-- The word for a kind. -/
def word : TypeKind → String
  | classType => "class"
  | interfaceType => "interface"
  | annotationType => "annotation"

/-- Every kind. -/
def all : List TypeKind :=
  [classType, interfaceType, annotationType]

/-- The kind that a word names. -/
def ofWord? (word : String) : Option TypeKind :=
  all.find? fun kind => kind.word == word

end TypeKind

end ApiCoverage
