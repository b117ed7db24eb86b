import ApiCoverage.Ordered.Map
import ApiCoverage.Surface.DeclarationFile

/-!
# The surface catalog

The catalog knows every surface that can be asked for: the declared ones by name, and those whose
class files lie in the folders of a classpath. Declared surfaces come first, and a later declaration
of a name replaces an earlier one. Reading a declaration file inserts its surfaces in order and
stops at the first that is refused; the ones before it stay.
-/

namespace ApiCoverage

open ClassFile (ClassUnit)

/-- The surfaces that can be asked for. -/
structure SurfaceCatalog where
  declared : OrderedMap String SurfaceDecl
  /-- The folders of the classpath in search order. -/
  classpath : List Path

namespace SurfaceCatalog

/-- The catalog without surfaces. -/
def empty : SurfaceCatalog :=
  ⟨.empty, []⟩

/-- The catalog with a declaration. -/
def insert (catalog : SurfaceCatalog) (name : String) (decl : SurfaceDecl) : SurfaceCatalog :=
  { catalog with declared := catalog.declared.insert name decl }

/-- A catalog after reading, and the number of surfaces read or why the reading failed. -/
structure Reading where
  catalog : SurfaceCatalog
  outcome : Except Failure Nat

/-- Inserts surfaces up to the first that is refused, after `count` others. -/
def declareAll (path : Path) (count : Nat) (catalog : SurfaceCatalog) :
    List DeclaredSurface → Reading
  | [] => ⟨catalog, .ok count⟩
  | surface :: rest =>
      match surface.toDecl path with
      | .error failure => ⟨catalog, .error failure⟩
      | .ok decl => declareAll path (count + 1) (catalog.insert surface.name decl) rest

/-- Inserts the surfaces of a declaration file, unless two of them have the same name. -/
def declareDistinct (path : Path) (catalog : SurfaceCatalog) (surfaces : List DeclaredSurface) :
    Reading :=
  match DeclaredSurface.repeatedName? [] surfaces with
  | some name => ⟨catalog, .error (.manifest path (.surfaceTwice name))⟩
  | none => catalog.declareAll path 0 surfaces

/-- Reads the text of the declaration file at a path. -/
def declareText (path : Path) (catalog : SurfaceCatalog) (text : String) : Reading :=
  match DeclaredSurface.listOfText text with
  | .error fault => ⟨catalog, .error (.manifest path (.malformed fault))⟩
  | .ok surfaces => catalog.declareDistinct path surfaces

/-- Reads a declaration file. -/
def declareFile (tree : FileTree) (catalog : SurfaceCatalog) (path : Path) :
    Except Failure SurfaceCatalog := do
  match tree.readText path with
  | .error fault => .error (.manifest path (.declarationsUnreadable fault))
  | .ok text =>
      let reading := catalog.declareText path text
      let _ ← reading.outcome
      return reading.catalog

/-- The path below a classpath folder where the class file of a type lies. -/
def unitPath (name : String) : Path :=
  String.ofList (name.toList.map fun char => if char = '.' then '/' else char) ++ ".class"

/-- Takes the declaration of a name from the class file at a path. -/
def readUnit (tree : FileTree) (name : String) (path : Path) : Except Failure SurfaceDecl :=
  match tree.read path with
  | .error fault => .error (.file path fault)
  | .ok bytes =>
      match ClassUnit.ofBytes bytes with
      | .error fault => .error (.unit path fault)
      | .ok unit =>
          if unit.name = name then .ok (.ofUnit unit)
          else .error (.configuration (.misnamedUnit path name unit.name))

/-- The declaration of a surface. On the classpath, the first folder with a file for the name
counts. -/
def resolve (tree : FileTree) (catalog : SurfaceCatalog) (name : String) :
    Except Failure SurfaceDecl :=
  match catalog.declared.get? name with
  | some decl => .ok decl
  | none =>
      let paths := catalog.classpath.map fun folder => Path.join folder (unitPath name)
      match paths.find? tree.isFile with
      | some path => readUnit tree name path
      | none => .error (.configuration (.unknownSurface name))

end SurfaceCatalog

end ApiCoverage
