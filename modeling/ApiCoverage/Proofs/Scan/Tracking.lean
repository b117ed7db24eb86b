import ApiCoverage.Proofs.Ordered.Map
import ApiCoverage.Proofs.Ordered.Set
import ApiCoverage.Scan.Tracking

/-!
# What choosing the tracked surfaces guarantees

An annotation type that declares no methods is tracked through the usage key. Every choice of
surfaces that succeeds gives such a type its usage key, so a use of the type always has a place in
the report.
-/

namespace ApiCoverage

namespace Logged

variable {α β : Type}

/-- A step after another succeeds if both do. -/
theorem outcome_bind_eq_ok_iff {first : Logged α} {second : α → Logged β} {value : β} :
    (first >>= second).outcome = .ok value ↔
      ∃ middle, first.outcome = .ok middle ∧ (second middle).outcome = .ok value := by
  change (first.andThen second).outcome = .ok value ↔ _
  unfold andThen
  cases first.outcome with
  | error failure => simp
  | ok middle => simp

end Logged

namespace TrackedSurface

/-- An annotation type that declares no methods has the usage key. -/
def CountsUses (surface : TrackedSurface) : Prop :=
  surface.isAnnotationType = true → surface.hasMembers = false →
    .usage ∈ surface.methods.elements

/-- The usage key is added where it is needed, whatever else is tracked. -/
theorem countsUses_ofDecl (decl : SurfaceDecl) (methods : OrderedSet MethodKey) :
    (ofDecl decl methods).CountsUses := by
  intro kind memberless
  simp only [ofDecl, isAnnotationType] at kind memberless
  simp [ofDecl, kind, memberless]

end TrackedSurface

namespace TrackedSurfaces

/-- Every surface that needs the usage key has it. -/
def CountsUses (tracked : TrackedSurfaces) : Prop :=
  ∀ name surface, tracked.get? name = some surface → surface.CountsUses

theorem countsUses_empty : empty.CountsUses := by
  intro name surface found
  cases found

theorem CountsUses.insert {tracked : TrackedSurfaces} (counts : tracked.CountsUses)
    (name : String) {surface : TrackedSurface} (new : surface.CountsUses) :
    (tracked.insert name surface).CountsUses := by
  intro other found
  by_cases same : other = name
  · subst same
    intro there
    have equal : some surface = some found :=
      OrderedMap.get?_insert_self.symm.trans there
    cases equal
    exact new
  · intro there
    apply counts other found
    rw [← there]
    exact (OrderedMap.get?_insert_of_ne same).symm

/-- Adding the surfaces of a list of names keeps the usage keys in place. -/
theorem CountsUses.trackNames {tree : FileTree} {catalog : SurfaceCatalog}
    {policy : ExclusionPolicy} {tracked result : TrackedSurfaces} {names : List String}
    (counts : tracked.CountsUses)
    (chosen : (trackNames tree catalog policy tracked names).outcome = .ok result) :
    result.CountsUses := by
  induction names generalizing tracked with
  | nil =>
      cases chosen
      exact counts
  | cons name rest ih =>
      rcases Logged.outcome_bind_eq_ok_iff.1 chosen with ⟨decl, resolved, chosen⟩
      rcases Logged.outcome_bind_eq_ok_iff.1 chosen with ⟨methods, kept, chosen⟩
      exact ih (counts.insert _ (TrackedSurface.countsUses_ofDecl decl methods)) chosen

/-- Choosing surfaces gives what its names give; only the log may grow. -/
theorem outcome_track {tree : FileTree} {catalog : SurfaceCatalog} {policy : ExclusionPolicy}
    {names : List String} {tracked : TrackedSurfaces}
    (chosen : (track tree catalog policy names).outcome = .ok tracked) :
    (trackNames tree catalog policy .empty names).outcome = .ok tracked := by
  rcases Logged.outcome_bind_eq_ok_iff.1 chosen with ⟨found, named, chosen⟩
  have same : found = tracked := by
    split at chosen
    · rcases Logged.outcome_bind_eq_ok_iff.1 chosen with ⟨_, _, chosen⟩
      exact Except.ok.inj chosen
    · exact Except.ok.inj chosen
  rw [← same]
  exact named

/-- Every choice of surfaces has the usage keys that it needs. -/
theorem countsUses_of_track {tree : FileTree} {catalog : SurfaceCatalog}
    {policy : ExclusionPolicy} {names : List String} {tracked : TrackedSurfaces}
    (chosen : (track tree catalog policy names).outcome = .ok tracked) : tracked.CountsUses :=
  countsUses_empty.trackNames (outcome_track chosen)

end TrackedSurfaces

end ApiCoverage
