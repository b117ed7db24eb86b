import ApiCoverage.ClassFile.Unit
import ApiCoverage.TypeKind

/-!
# Declared surfaces

A surface is a type whose methods are measured. Its declaration gives its kind, the types that it
extends or implements, and every method that it declares. A declaration is written in a file or
taken from the class file of the type.
-/

namespace ApiCoverage

open ClassFile (ClassUnit MethodDecl)

/-- What a surface declares. -/
structure SurfaceDecl where
  kind : TypeKind
  /-- The super types in the order in which a search visits them. -/
  supers : List String
  methods : List MethodDecl
  deriving DecidableEq, Repr

namespace SurfaceDecl

/-- The kind of type that a class file declares. -/
def kindOf (unit : ClassUnit) : TypeKind :=
  if unit.access.isAnnotationType then .annotationType
  else if unit.access.isInterface then .interfaceType
  else .classType

/-- The super types of a class file: a class has its super class before its interfaces, an interface
has its interfaces alone, and an annotation type has none. -/
def supersOf (unit : ClassUnit) : List String :=
  match kindOf unit with
  | .classType => unit.superName.toList ++ unit.interfaces
  | .interfaceType => unit.interfaces
  | .annotationType => []

/-- The declaration in a class file. -/
def ofUnit (unit : ClassUnit) : SurfaceDecl :=
  ⟨kindOf unit, supersOf unit, unit.methods⟩

end SurfaceDecl

end ApiCoverage
