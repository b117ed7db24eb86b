import ApiCoverage.Proofs.Scan.Selection
import ApiCoverage.Proofs.Surface.CatalogReading

/-!
# Tracking declared surfaces by their names

A declaration file may give a surface any name that is not all blanks, and the catalog keeps the name as
it is written. Tracking trims the names that it is given. So a declared surface can be tracked by its
name when no blank stands at an end of the name, and otherwise no choice of surfaces ever contains it.
-/

namespace ApiCoverage

namespace SurfaceCatalog

/-- The catalogs that come from declaration files alone, each of them read to its end. -/
inductive FromFiles : SurfaceCatalog → Prop where
  | empty : FromFiles empty
  | declareText {catalog : SurfaceCatalog} {count : Nat} (old : FromFiles catalog) (path : Path)
      (text : String) (read : (catalog.declareText path text).outcome = .ok count) :
      FromFiles (catalog.declareText path text).catalog

theorem FromFiles.classpath_eq_nil {catalog : SurfaceCatalog} (files : catalog.FromFiles) :
    catalog.classpath = [] := by
  induction files with
  | empty => rfl
  | declareText _ path text _ ih => rw [classpath_declareText, ih]

/-- In a catalog from declaration files, a name without a declaration is unknown. -/
theorem FromFiles.resolve_of_undeclared {catalog : SurfaceCatalog} (files : catalog.FromFiles)
    {name : String} (undeclared : catalog.declared.get? name = none) (tree : FileTree) :
    catalog.resolve tree name = .error (.configuration (.unknownSurface name)) := by
  rw [resolve, undeclared, files.classpath_eq_nil]
  rfl

end SurfaceCatalog

/-- A tracked surface is built from a declaration: it has the kind and the super types, the methods that
the policy leaves, and the usage key in place of the methods of an annotation type that declares none. -/
structure TrackedSurface.BuiltFrom (policy : ExclusionPolicy) (name : String) (decl : SurfaceDecl)
    (surface : TrackedSurface) : Prop where
  kind : surface.kind = decl.kind
  supers : surface.supers = decl.supers
  methods : ∀ key, key ∈ surface.methods.elements ↔
    (∃ method ∈ decl.methods, policy name method = none ∧ .ofDecl method = key) ∨
      (decl.kind = .annotationType ∧ decl.methods = []) ∧ key = .usage
  hasMembers : surface.hasMembers = true ↔ decl.methods ≠ []

theorem TrackedSurface.builtFrom_narrow (policy : ExclusionPolicy) (name : String)
    (decl : SurfaceDecl) : BuiltFrom policy name decl (.narrow policy name decl) where
  kind := rfl
  supers := rfl
  methods _ := mem_methods_narrow_iff
  hasMembers := by simp [narrow, ofDecl]

namespace TrackedSurfaces

variable {catalog : SurfaceCatalog} {name : String} {decl : SurfaceDecl}

/-- A choice never contains a name that trimming changes. -/
theorem get?_of_track_trimmed {tree : FileTree} {policy : ExclusionPolicy} {names : List String}
    {tracked : TrackedSurfaces} (untrimmed : ∀ listed ∈ names, Text.trim listed ≠ name)
    (chosen : (track tree catalog policy names).outcome = .ok tracked) :
    tracked.get? name = none := by
  cases found : tracked.get? name with
  | none => rfl
  | some surface =>
      obtain ⟨⟨listed, member, same⟩, _⟩ := (get?_of_track chosen).1 found
      exact absurd same (untrimmed listed member)

/-- A name that does not resolve is the failure of a choice that begins with it. -/
theorem outcome_track_of_unresolved {tree : FileTree} {policy : ExclusionPolicy}
    {names : List String} {failure : Failure}
    (unresolved : catalog.resolve tree (Text.trim name) = .error failure) :
    (track tree catalog policy (name :: names)).outcome = .error failure := by
  rw [outcome_track_eq_error_iff, outcome_trackNames_eq_error_iff]
  exact ⟨name, behind_cons_iff.2 (.inl rfl), .unresolved unresolved⟩

/-- A declared surface with readable descriptors is tracked by a name that trimming leaves alone. By any
other name it is never tracked: the trimmed name stands for another surface, or for none. -/
theorem track_declared (files : catalog.FromFiles)
    (declared : catalog.declared.get? name = some decl)
    (readable : TrackedSurface.Readable decl.methods) (tree : FileTree) (policy : ExclusionPolicy) :
    (Text.trim name = name →
      ∃ tracked surface, (track tree catalog policy [name]).outcome = .ok tracked ∧
        tracked.get? name = some surface ∧ surface.BuiltFrom policy name decl) ∧
    (Text.trim name ≠ name →
      (∀ tracked, (track tree catalog policy [name]).outcome = .ok tracked →
        tracked.get? name = none) ∧
      (catalog.declared.get? (Text.trim name) = none →
        (track tree catalog policy [name]).outcome =
          .error (.configuration (.unknownSurface (Text.trim name))))) := by
  constructor
  · intro trimmed
    have offers : Offers tree catalog (Text.trim name) decl := by
      rw [trimmed]
      exact ⟨SurfaceCatalog.resolve_of_declared declared tree, readable⟩
    refine ⟨_, .narrow policy name decl, outcome_track_singleton offers, ?_, ?_⟩
    · rw [trimmed]
      exact OrderedMap.get?_insert_self
    · exact TrackedSurface.builtFrom_narrow policy name decl
  · intro trimmed
    constructor
    · intro tracked chosen
      exact get?_of_track_trimmed (by simpa using trimmed) chosen
    · intro undeclared
      exact outcome_track_of_unresolved (files.resolve_of_undeclared undeclared tree)

/-! ## Two declaration files -/

/-- A declaration file with one surface of the given name. -/
def surfaceFile (name : String) : String :=
  "[[surface]]\nname = \"" ++ name ++ "\"\n\n[[surface.method]]\nname = \"sell\"\nparams = [\"int\"]\n"

/-- The catalog from a declaration file with one surface. -/
def fileCatalog (name : String) : SurfaceCatalog :=
  (SurfaceCatalog.empty.declareText "surfaces.toml" (surfaceFile name)).catalog

/-- The declaration in the file. -/
def sellDecl : SurfaceDecl :=
  ⟨.classType, [], [{ name := "sell", descriptor := "(I)V", access := .ofPublic }]⟩

theorem readable_sellDecl : TrackedSurface.Readable sellDecl.methods := by
  intro method member
  cases List.mem_singleton.1 member
  exact ⟨⟨.void, [.primitive .int]⟩, by cbv⟩

theorem fromFiles_of_isOk {name : String}
    (read : (SurfaceCatalog.empty.declareText "surfaces.toml" (surfaceFile name)).outcome.isOk = true) :
    (fileCatalog name).FromFiles := by
  obtain ⟨count, outcome⟩ := Outcome.exists_of_isOk read
  exact .declareText .empty "surfaces.toml" (surfaceFile name) outcome

/-- A surface that is declared as it is trimmed is tracked by its name. -/
theorem track_declared_shop :
    (fileCatalog "a.Shop").FromFiles ∧
      (fileCatalog "a.Shop").declared.get? "a.Shop" = some sellDecl ∧
      TrackedSurface.Readable sellDecl.methods ∧ Text.trim "a.Shop" = "a.Shop" ∧
      ∃ tracked surface,
        (track ⟨.emptyFolder, []⟩ (fileCatalog "a.Shop") (baseExclusion false)
          ["a.Shop"]).outcome = .ok tracked ∧
        tracked.get? "a.Shop" = some surface ∧
        surface.BuiltFrom (baseExclusion false) "a.Shop" sellDecl := by
  have files : (fileCatalog "a.Shop").FromFiles := fromFiles_of_isOk (by decide +kernel)
  have declared : (fileCatalog "a.Shop").declared.get? "a.Shop" = some sellDecl := by decide +kernel
  have trimmed : Text.trim "a.Shop" = "a.Shop" := by decide
  exact ⟨files, declared, readable_sellDecl, trimmed,
    (track_declared files declared readable_sellDecl ⟨.emptyFolder, []⟩ (baseExclusion false)).1 trimmed⟩

/-- A surface that is declared with a blank in front of its name cannot be tracked by this name. -/
theorem outcome_track_of_blank_front :
    (fileCatalog " a.Shop").FromFiles ∧
      (fileCatalog " a.Shop").declared.get? " a.Shop" = some sellDecl ∧
      TrackedSurface.Readable sellDecl.methods ∧
      (track ⟨.emptyFolder, []⟩ (fileCatalog " a.Shop") (baseExclusion false) [" a.Shop"]).outcome =
        .error (.configuration (.unknownSurface "a.Shop")) := by
  have files : (fileCatalog " a.Shop").FromFiles := fromFiles_of_isOk (by decide +kernel)
  have trimmed : Text.trim " a.Shop" = "a.Shop" := by decide
  refine ⟨files, by decide +kernel, readable_sellDecl, outcome_track_of_unresolved ?_⟩
  rw [trimmed]
  exact files.resolve_of_undeclared (by decide +kernel) _

end TrackedSurfaces

end ApiCoverage
