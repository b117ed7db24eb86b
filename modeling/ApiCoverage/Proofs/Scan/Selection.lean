import ApiCoverage.Proofs.Outcome
import ApiCoverage.Proofs.Scan.ExclusionLog

/-!
# What a list of names selects

Tracking a list of names goes through the names in order, and for each name through its methods in
order, and it stops at the first that cannot be used. If there is none, the surfaces are read off the
declarations of the names, and the log off the methods that the policy leaves out, name by name as
the list has them. The surfaces are the same for every list of the same names, but the log is not.
-/

namespace ApiCoverage

open ClassFile (MethodDecl)

namespace Logged

variable {α β : Type}

/-- A step after another fails if the first fails, or if the second fails behind it. -/
theorem outcome_bind_eq_error_iff {first : Logged α} {second : α → Logged β} {failure : Failure} :
    (first >>= second).outcome = .error failure ↔
      first.outcome = .error failure ∨
        ∃ middle, first.outcome = .ok middle ∧ (second middle).outcome = .error failure := by
  change (first.andThen second).outcome = .error failure ↔ _
  unfold andThen
  cases first.outcome with
  | error failure => simp
  | ok middle => simp

end Logged

/-! ## Why a surface cannot be tracked -/

/-- The descriptor of a method can be read. -/
def Decodes (method : MethodDecl) : Prop :=
  ∃ signature, Descriptor.decodeOpen method.descriptor = .ok signature

/-- The methods of a surface cannot be tracked because of the first whose descriptor cannot be
read. -/
theorem TrackedSurface.outcome_trackMethods_eq_error_iff {policy : ExclusionPolicy} {type : String}
    {kept : OrderedSet MethodKey} {methods : List MethodDecl} {failure : Failure} :
    (trackMethods policy type kept methods).outcome = .error failure ↔
      ∃ method fault, Behind Decodes methods method ∧
        Descriptor.decodeOpen method.descriptor = .error fault ∧
        failure = .descriptor type method.name fault := by
  induction methods generalizing kept with
  | nil =>
      change Except.ok kept = .error failure ↔ _
      simp [not_behind_nil]
  | cons method rest ih =>
      unfold trackMethods
      simp only [behind_cons_iff]
      cases read : Descriptor.decodeOpen method.descriptor with
      | error fault =>
          simp [Logged.fail, Decodes, read, eq_comm]
      | ok signature =>
          cases decided : policy type method with
          | none => simp [ih, Decodes, read]
          | some reason =>
              simp [Logged.outcome_bind_eq_error_iff, ih, Decodes, read, Logged.event]

namespace TrackedSurfaces

variable {tree : FileTree} {catalog : SurfaceCatalog} {policy : ExclusionPolicy}
  {tracked result : TrackedSurfaces} {names : List String} {name : String} {failure : Failure}

/-- Why a name cannot be tracked: it does not resolve, or the first method of its declaration whose
descriptor cannot be read is in the way. -/
inductive Refused (tree : FileTree) (catalog : SurfaceCatalog) (name : String) : Failure → Prop where
  | unresolved {failure : Failure} (fails : catalog.resolve tree name = .error failure) :
      Refused tree catalog name failure
  | unreadable {decl : SurfaceDecl} {method : MethodDecl} {fault : Descriptor.Fault}
      (resolved : catalog.resolve tree name = .ok decl)
      (first : Behind Decodes decl.methods method)
      (refused : Descriptor.decodeOpen method.descriptor = .error fault) :
      Refused tree catalog name (.descriptor name method.name fault)

/-- The first name of a list is refused, or a later one behind it. -/
theorem outcome_trackNames_cons_eq_error_iff {rest : List String} :
    (trackNames tree catalog policy tracked (name :: rest)).outcome = .error failure ↔
      Refused tree catalog (Text.trim name) failure ∨
        ∃ decl, Offers tree catalog (Text.trim name) decl ∧
          (trackNames tree catalog policy
            (tracked.insert (Text.trim name) (.narrow policy (Text.trim name) decl))
            rest).outcome = .error failure := by
  rw [trackNames]
  simp only [Logged.outcome_bind_eq_error_iff, Logged.ofExcept,
    TrackedSurface.outcome_trackMethods_eq_ok_iff,
    TrackedSurface.outcome_trackMethods_eq_error_iff]
  constructor
  · rintro (fails | ⟨decl, resolved, ⟨method, fault, first, refused, rfl⟩ | later⟩)
    · exact .inl (.unresolved fails)
    · exact .inl (.unreadable resolved first refused)
    · rcases later with ⟨_, ⟨readable, rfl⟩, fails⟩
      exact .inr ⟨decl, ⟨resolved, readable⟩, fails⟩
  · rintro (refused | ⟨decl, ⟨resolved, readable⟩, fails⟩)
    · cases refused with
      | unresolved fails => exact .inl fails
      | unreadable resolved first refused =>
          exact .inr ⟨_, resolved, .inl ⟨_, _, first, refused, rfl⟩⟩
    · exact .inr ⟨decl, resolved, .inr ⟨_, ⟨readable, rfl⟩, fails⟩⟩

/-- A listed name resolves to a declaration whose descriptors can all be read. -/
def Trackable (tree : FileTree) (catalog : SurfaceCatalog) (listed : String) : Prop :=
  ∃ decl, Offers tree catalog (Text.trim listed) decl

/-- A list of names fails for the reason of the first name that cannot be tracked. -/
theorem outcome_trackNames_eq_error_iff :
    (trackNames tree catalog policy tracked names).outcome = .error failure ↔
      ∃ listed, Behind (Trackable tree catalog) names listed ∧
        Refused tree catalog (Text.trim listed) failure := by
  induction names generalizing tracked with
  | nil => simp [trackNames, pure, not_behind_nil]
  | cons name rest ih =>
      simp only [outcome_trackNames_cons_eq_error_iff, ih, behind_cons_iff]
      constructor
      · rintro (refused | ⟨decl, offers, listed, behind, refused⟩)
        · exact ⟨name, .inl rfl, refused⟩
        · exact ⟨listed, .inr ⟨⟨decl, offers⟩, behind⟩, refused⟩
      · rintro ⟨listed, rfl | ⟨⟨decl, offers⟩, behind⟩, refused⟩
        · exact .inl refused
        · exact .inr ⟨decl, offers, listed, behind, refused⟩

/-- That nothing is tracked is no failure, so tracking fails only where its names do. -/
theorem outcome_track_eq_error_iff :
    (track tree catalog policy names).outcome = .error failure ↔
      (trackNames tree catalog policy .empty names).outcome = .error failure := by
  rw [track, Logged.outcome_bind_eq_error_iff]
  refine or_iff_left ?_
  rintro ⟨named, _, fails⟩
  split at fails
  · cases fails
  · cases fails

end TrackedSurfaces

end ApiCoverage
