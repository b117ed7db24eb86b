import ApiCoverage.Proofs.Descriptor.Canonical
import ApiCoverage.Proofs.Ordered.Map
import ApiCoverage.Proofs.Outcome
import ApiCoverage.Surface.Catalog

/-!
# What declaration files bring into the catalog

Whatever holds of the old declarations and of each one that a file gives holds of all declarations
after the file is read, even if it is read only in part. So a catalog has no dot in its descriptors
if no file spells one out: descriptors that are built from type names of source text have slashes.
-/

namespace ApiCoverage

namespace SurfaceCatalog

/-- Every declared surface has a property. -/
def AllDeclared (holds : SurfaceDecl → Prop) (catalog : SurfaceCatalog) : Prop :=
  ∀ name decl, catalog.declared.get? name = some decl → holds decl

variable {holds : SurfaceDecl → Prop} {catalog : SurfaceCatalog} {path : Path}

theorem allDeclared_empty (holds : SurfaceDecl → Prop) : empty.AllDeclared holds := by
  intro name decl found
  cases found

theorem AllDeclared.insert (old : catalog.AllDeclared holds) (name : String) {decl : SurfaceDecl}
    (new : holds decl) : (catalog.insert name decl).AllDeclared holds := by
  intro other found held
  by_cases same : other = name
  · subst same
    cases Option.some.inj (OrderedMap.get?_insert_self.symm.trans held)
    exact new
  · exact old other found ((OrderedMap.get?_insert_of_ne same).symm.trans held)

/-- Inserting surfaces up to one that is refused keeps a property of all declarations. -/
theorem AllDeclared.declareAll {surfaces : List DeclaredSurface} {count : Nat}
    (old : catalog.AllDeclared holds)
    (new : ∀ surface ∈ surfaces, ∀ decl, surface.toDecl path = .ok decl → holds decl) :
    (catalog.declareAll path count surfaces).catalog.AllDeclared holds := by
  induction surfaces generalizing catalog count with
  | nil => exact old
  | cons surface rest ih =>
      rw [SurfaceCatalog.declareAll]
      rcases List.forall_mem_cons.1 new with ⟨first, later⟩
      split
      · exact old
      · next decl given => exact ih (old.insert surface.name (first decl given)) later

/-- Reading a declaration file keeps a property of all declarations. -/
theorem AllDeclared.declareText {text : String} (old : catalog.AllDeclared holds)
    (new : ∀ surfaces, DeclaredSurface.listOfText text = .ok surfaces → ∀ surface ∈ surfaces,
      ∀ decl, surface.toDecl path = .ok decl → holds decl) :
    (catalog.declareText path text).catalog.AllDeclared holds := by
  rw [SurfaceCatalog.declareText]
  split
  · exact old
  · next surfaces listed =>
      rw [SurfaceCatalog.declareDistinct]
      split
      · exact old
      · exact old.declareAll (new surfaces listed)

/-- Inserting surfaces keeps the classpath. -/
theorem classpath_declareAll {surfaces : List DeclaredSurface} {count : Nat} :
    (catalog.declareAll path count surfaces).catalog.classpath = catalog.classpath := by
  induction surfaces generalizing catalog count with
  | nil => rfl
  | cons surface rest ih =>
      rw [SurfaceCatalog.declareAll]
      split
      · rfl
      · exact ih

/-- Reading a declaration file keeps the classpath. -/
theorem classpath_declareText {text : String} :
    (catalog.declareText path text).catalog.classpath = catalog.classpath := by
  rw [SurfaceCatalog.declareText]
  split
  · rfl
  · rw [SurfaceCatalog.declareDistinct]
    split
    · rfl
    · exact classpath_declareAll

end SurfaceCatalog

/-! ## Descriptors without dots -/

/-- No descriptor of a declaration holds a dot. -/
def SurfaceDecl.Undotted (decl : SurfaceDecl) : Prop :=
  ∀ method ∈ decl.methods, '.' ∉ method.descriptor.toList

/-- A method of a declaration file does not spell out a descriptor with a dot. -/
def DeclaredMethod.Undotted (method : DeclaredMethod) : Prop :=
  ∀ descriptor, method.descriptor = some descriptor → '.' ∉ descriptor.toList

/-- Type names of source text give a descriptor without dots. -/
theorem DeclaredMethod.dot_not_mem_of_sourceDescriptor {params : List String}
    {returns : Option String} {descriptor : String}
    (built : sourceDescriptor params returns = .ok descriptor) : '.' ∉ descriptor.toList := by
  rcases Outcome.bind_eq_ok_iff.1 built with ⟨params, _, built⟩
  cases returns with
  | none =>
      cases built
      exact Descriptor.dot_not_mem_encode _
  | some name =>
      rcases Outcome.bind_eq_ok_iff.1 built with ⟨type, _, built⟩
      cases built
      exact Descriptor.dot_not_mem_encode _

theorem DeclaredMethod.Undotted.toDecl {method : DeclaredMethod} {path : Path} {surface : String}
    {decl : ClassFile.MethodDecl} (undotted : method.Undotted)
    (given : method.toDecl path surface = .ok decl) : '.' ∉ decl.descriptor.toList := by
  unfold DeclaredMethod.toDecl at given
  split at given
  · next descriptor literal =>
      split at given
      · cases given
      · cases given
        exact undotted descriptor literal
  · split at given
    · next descriptor built =>
        cases given
        exact dot_not_mem_of_sourceDescriptor built
    · cases given

namespace DeclaredSurface

theorem dot_not_mem_of_methodDecls {path : Path} {surface : String}
    {methods : List DeclaredMethod} {decls : List ClassFile.MethodDecl}
    (undotted : ∀ method ∈ methods, method.Undotted)
    (given : methodDecls path surface methods = .ok decls) :
    ∀ decl ∈ decls, '.' ∉ decl.descriptor.toList := by
  induction methods generalizing decls with
  | nil =>
      cases given
      simp
  | cons method rest ih =>
      rcases List.forall_mem_cons.1 undotted with ⟨first, later⟩
      rw [methodDecls] at given
      split at given
      · cases given
      · next decl read =>
          rcases Outcome.map_eq_ok_iff.1 given with ⟨others, found, rfl⟩
          exact List.forall_mem_cons.2 ⟨first.toDecl read, ih later found⟩

/-- A surface whose methods spell out no dot gives a declaration without dots. -/
theorem undotted_of_toDecl {path : Path} {surface : DeclaredSurface} {decl : SurfaceDecl}
    (undotted : ∀ method ∈ surface.methods, method.Undotted)
    (given : surface.toDecl path = .ok decl) : decl.Undotted := by
  rw [toDecl] at given
  split at given
  · cases given
  · rcases Outcome.map_eq_ok_iff.1 given with ⟨methods, found, rfl⟩
    exact dot_not_mem_of_methodDecls undotted found

end DeclaredSurface

namespace SurfaceCatalog

/-- The catalogs that are built from surfaces and declaration files which spell out no dot. -/
inductive Undotted : SurfaceCatalog → Prop where
  | empty : Undotted empty
  | insert {catalog : SurfaceCatalog} {decl : SurfaceDecl} (old : Undotted catalog) (name : String)
      (new : decl.Undotted) : Undotted (catalog.insert name decl)
  | declareText {catalog : SurfaceCatalog} {text : String} (old : Undotted catalog) (path : Path)
      (new : ∀ surfaces, DeclaredSurface.listOfText text = .ok surfaces → ∀ surface ∈ surfaces,
        ∀ method ∈ surface.methods, method.Undotted) :
      Undotted (catalog.declareText path text).catalog

theorem Undotted.allDeclared {catalog : SurfaceCatalog} (undotted : catalog.Undotted) :
    catalog.AllDeclared SurfaceDecl.Undotted := by
  induction undotted with
  | empty => exact allDeclared_empty _
  | insert _ name new ih => exact ih.insert name new
  | declareText _ path new ih =>
      apply ih.declareText
      intro surfaces listed surface member decl given
      exact DeclaredSurface.undotted_of_toDecl (new surfaces listed surface member) given

theorem Undotted.classpath_eq_nil {catalog : SurfaceCatalog} (undotted : catalog.Undotted) :
    catalog.classpath = [] := by
  induction undotted with
  | empty => rfl
  | insert _ _ _ ih => exact ih
  | declareText _ _ _ ih => rw [classpath_declareText, ih]

end SurfaceCatalog

end ApiCoverage
