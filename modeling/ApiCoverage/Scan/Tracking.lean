import ApiCoverage.Scan.Log
import ApiCoverage.Surface.Catalog
import ApiCoverage.Surface.Tracked

/-!
# Choosing what is tracked

The surfaces that a scan names are resolved one after another. Every method of a surface must have a
descriptor that can be read, even one that is excluded. An excluded method is logged and otherwise
forgotten; the others are tracked. An annotation type without methods is tracked by its uses.
-/

namespace ApiCoverage

open ClassFile (MethodDecl)

namespace MethodKey

/-- The key of a declared method. -/
def ofDecl (method : MethodDecl) : MethodKey :=
  ⟨method.name, method.descriptor⟩

end MethodKey

namespace TrackedSurface

/-- Adds the methods of a surface that are tracked to those in `kept`. -/
def trackMethods (policy : ExclusionPolicy) (surface : String) (kept : OrderedSet MethodKey) :
    List MethodDecl → Logged (OrderedSet MethodKey)
  | [] => pure kept
  | method :: rest => do
      match Descriptor.decodeOpen method.descriptor with
      | .error fault => Logged.fail (.descriptor surface method.name fault)
      | .ok _ =>
          match policy surface method with
          | some reason => do
              Logged.event (.methodExcluded surface (.ofDecl method) reason)
              trackMethods policy surface kept rest
          | none => trackMethods policy surface (kept.insert (.ofDecl method)) rest

/-- The surface with the tracked methods of its declaration. -/
def ofDecl (decl : SurfaceDecl) (methods : OrderedSet MethodKey) : TrackedSurface :=
  let hasMembers := !decl.methods.isEmpty
  let byUse := decl.kind == .annotationType && !hasMembers
  ⟨decl.kind, decl.supers, if byUse then methods.insert .usage else methods, hasMembers⟩

end TrackedSurface

namespace TrackedSurfaces

/-- Adds the surfaces of a list of names to those in `tracked`. -/
def trackNames (tree : FileTree) (catalog : SurfaceCatalog) (policy : ExclusionPolicy)
    (tracked : TrackedSurfaces) : List String → Logged TrackedSurfaces
  | [] => pure tracked
  | name :: rest => do
      let name := Text.trim name
      let decl ← Logged.ofExcept (catalog.resolve tree name)
      let methods ← TrackedSurface.trackMethods policy name .empty decl.methods
      trackNames tree catalog policy (tracked.insert name (.ofDecl decl methods)) rest

/-- The tracked surfaces of a list of names. That nothing is tracked is logged. -/
def track (tree : FileTree) (catalog : SurfaceCatalog) (policy : ExclusionPolicy)
    (names : List String) : Logged TrackedSurfaces := do
  let tracked ← trackNames tree catalog policy .empty names
  if tracked.isIdle then
    Logged.event .noTargets
  return tracked

end TrackedSurfaces

end ApiCoverage
