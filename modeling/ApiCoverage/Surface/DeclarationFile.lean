import ApiCoverage.Failure
import ApiCoverage.JvmType.SourceName
import ApiCoverage.Surface
import ApiCoverage.Toml.Document

/-!
# Declaration files

A declaration file is a TOML document with an array of surfaces. A method gives its types either as
a descriptor or as type names of source text, where the return type is `void` unless it is given.
Reading has two steps: the document must have the right shape as a whole, and then the surfaces turn
into declarations one by one.
-/

namespace ApiCoverage

open ClassFile (Access MethodDecl)

/-- The access that a declaration file names. -/
inductive DeclaredAccess where
  | publicAccess
  | protectedAccess
  | packageAccess
  | privateAccess
  deriving DecidableEq, Repr

namespace DeclaredAccess

/-- The access that a word names. -/
def ofWord? : String → Option DeclaredAccess
  | "public" => some publicAccess
  | "protected" => some protectedAccess
  | "package" => some packageAccess
  | "private" => some privateAccess
  | _ => none

/-- The flag word with no other flags. -/
def flags : DeclaredAccess → Access
  | publicAccess => ⟨Access.publicFlag⟩
  | protectedAccess => ⟨Access.protectedFlag⟩
  | packageAccess => ⟨0⟩
  | privateAccess => ⟨Access.privateFlag⟩

end DeclaredAccess

/-- A method as a declaration file writes it. -/
structure DeclaredMethod where
  name : String
  descriptor : Option String
  params : Option (List String)
  returns : Option String
  access : DeclaredAccess
  deprecated : Bool
  deriving DecidableEq, Repr

/-- A surface as a declaration file writes it. -/
structure DeclaredSurface where
  name : String
  kind : TypeKind
  supers : List String
  methods : List DeclaredMethod
  deriving DecidableEq, Repr

namespace DeclaredMethod

/-- The method in a TOML value. -/
def ofValue (value : Toml.Value) : Toml.Outcome DeclaredMethod := do
  let record ← Toml.Record.ofValue
    ["name", "descriptor", "params", "returns", "access", "deprecated"] value
  return {
    name := ← record.required "name" Toml.Value.asString
    descriptor := ← record.optional "descriptor" Toml.Value.asString
    params := ← record.optional "params" Toml.Value.asStrings
    returns := ← record.optional "returns" Toml.Value.asString
    access := ← record.withDefault "access"
      (Toml.Value.asChoice DeclaredAccess.ofWord?) .publicAccess
    deprecated := ← record.withDefault "deprecated" Toml.Value.asBool false }

/-- The types of a list of type names, or the fault of the first that is none. -/
def sourceTypes : List String → Except Descriptor.Fault (List JvmType)
  | [] => .ok []
  | name :: rest =>
      match JvmType.parseSourceName name with
      | .error fault => .error fault
      | .ok type => (sourceTypes rest).map (type :: ·)

/-- The descriptor for type names of source text. -/
def sourceDescriptor (params : List String) (returns : Option String) :
    Except Descriptor.Fault String := do
  let params ← sourceTypes params
  let returns ← match returns with
    | some name => JvmType.parseSourceName name
    | none => .ok JvmType.void
  return Descriptor.encode ⟨returns, params⟩

/-- The declaration of a method of a surface. -/
def toDecl (path : Path) (surface : String) (method : DeclaredMethod) :
    Except Failure MethodDecl :=
  let withDescriptor (descriptor : String) : MethodDecl :=
    { name := method.name, descriptor, access := method.access.flags,
      deprecated := method.deprecated }
  match method.descriptor with
  | some descriptor =>
      if method.params.isSome || method.returns.isSome then
        .error (.manifest path (.typesTwice surface method.name))
      else
        .ok (withDescriptor descriptor)
  | none =>
      match sourceDescriptor (method.params.getD []) method.returns with
      | .ok descriptor => .ok (withDescriptor descriptor)
      | .error fault => .error (.descriptor surface method.name fault)

end DeclaredMethod

namespace DeclaredSurface

/-- The surface in a TOML value. -/
def ofValue (value : Toml.Value) : Toml.Outcome DeclaredSurface := do
  let record ← Toml.Record.ofValue ["name", "kind", "extends", "method"] value
  return {
    name := ← record.required "name" Toml.Value.asString
    kind := ← record.withDefault "kind" (Toml.Value.asChoice TypeKind.ofWord?) .classType
    supers := ← record.withDefault "extends" Toml.Value.asStrings []
    methods := ← record.withDefault "method" (Toml.Value.asList DeclaredMethod.ofValue) [] }

/-- The surfaces of a declaration file. -/
def listOfText (text : String) : Toml.Outcome (List DeclaredSurface) := do
  let record ← Toml.Record.ofValue ["surface"] (← Toml.parse text)
  record.withDefault "surface" (Toml.Value.asList ofValue) []

/-- The declarations of a list of methods, or the failure of the first that has none. -/
def methodDecls (path : Path) (surface : String) :
    List DeclaredMethod → Except Failure (List MethodDecl)
  | [] => .ok []
  | method :: rest =>
      match method.toDecl path surface with
      | .error failure => .error failure
      | .ok decl => (methodDecls path surface rest).map (decl :: ·)

/-- The declaration of a surface. Its name must hold more than blanks. -/
def toDecl (path : Path) (surface : DeclaredSurface) : Except Failure SurfaceDecl :=
  if (Text.trim surface.name).isEmpty then .error (.manifest path .blankSurface)
  else
    (methodDecls path surface.name surface.methods).map fun methods =>
      ⟨surface.kind, surface.supers, methods⟩

/-- The first name that a list of surfaces repeats; `seen` holds the names before the list. -/
def repeatedName? (seen : List String) : List DeclaredSurface → Option String
  | [] => none
  | surface :: rest =>
      if seen.contains surface.name then some surface.name
      else repeatedName? (surface.name :: seen) rest

end DeclaredSurface

end ApiCoverage
