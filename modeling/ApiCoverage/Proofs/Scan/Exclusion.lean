import ApiCoverage.Proofs.Scan.Choice
import ApiCoverage.Proofs.Scan.Run
import ApiCoverage.Proofs.Surface.Reduction

/-!
# The effect of one more exclusion

A policy that leaves out one method more takes this method from the report and nothing else. The call
sites of all other methods stay as they are, but for methods with the same key on other surfaces:
a call that led to the missing method now goes on to the next declaration above, if one is tracked.
-/

namespace ApiCoverage

open ClassFile (AnnotationUse ClassUnit MethodDecl)

/-- A policy leaves out the methods of a surface with a key, and decides on every other method as
another policy does. -/
structure LeavesOut (stricter policy : ExclusionPolicy) (target : TrackedMethod) : Prop where
  excludes : ∀ method, .ofDecl method = target.key → stricter target.surface method ≠ none
  agrees : ∀ type method, (⟨type, .ofDecl method⟩ : TrackedMethod) ≠ target →
    stricter type method = policy type method

/-- A policy with one method more on its list. -/
def ExclusionPolicy.alsoListing (policy : ExclusionPolicy) (target : TrackedMethod) :
    ExclusionPolicy := fun type method =>
  if (⟨type, .ofDecl method⟩ : TrackedMethod) = target then some .listed else policy type method

theorem leavesOut_alsoListing (policy : ExclusionPolicy) (target : TrackedMethod) :
    LeavesOut (policy.alsoListing target) policy target := by
  constructor
  · rintro method same
    simp [ExclusionPolicy.alsoListing, same]
  · intro type method differs
    rw [ExclusionPolicy.alsoListing, if_neg differs]

namespace TrackedSurfaces

variable {tree : FileTree} {catalog : SurfaceCatalog} {policy stricter : ExclusionPolicy}
  {names : List String} {target : TrackedMethod} {full reduced : TrackedSurfaces}

/-- A method is the usage key of an annotation type that declares no methods. -/
def IsUsageKey (tracked : TrackedSurfaces) (target : TrackedMethod) : Prop :=
  target.key = .usage ∧ ∃ surface, tracked.get? target.surface = some surface ∧
    surface.isAnnotationType = true ∧ surface.hasMembers = false

/-- A declaration that the stricter policy reduces lacks the method, and no other. -/
theorem narrow_reduces (stricterPolicy : LeavesOut stricter policy target) {type : String}
    {decl : SurfaceDecl}
    (declared : ¬ ((decl.kind = .annotationType ∧ decl.methods = []) ∧
      (⟨type, .usage⟩ : TrackedMethod) = target)) :
    (TrackedSurface.narrow policy type decl).Reduces target type
      (TrackedSurface.narrow stricter type decl) := by
  refine ⟨rfl, rfl, rfl, ?_⟩
  intro key
  rw [TrackedSurface.mem_methods_narrow_iff, TrackedSurface.mem_methods_narrow_iff]
  by_cases missing : (⟨type, key⟩ : TrackedMethod) = target
  · subst missing
    constructor
    · rintro (⟨method, _, kept, same⟩ | ⟨byUse, rfl⟩)
      · exact absurd kept (stricterPolicy.excludes method same)
      · exact absurd ⟨byUse, rfl⟩ declared
    · rintro ⟨_, differs⟩
      exact absurd rfl differs
  · have alike : ∀ method, .ofDecl method = key → stricter type method = policy type method := by
      rintro method rfl
      exact stricterPolicy.agrees type method missing
    constructor
    · rintro (⟨method, member, kept, same⟩ | byUse)
      · exact ⟨.inl ⟨method, member, (alike method same).symm.trans kept, same⟩, missing⟩
      · exact ⟨.inr byUse, missing⟩
    · rintro ⟨⟨method, member, kept, same⟩ | byUse, _⟩
      · exact .inl ⟨method, member, (alike method same).trans kept, same⟩
      · exact .inr byUse

/-- Under the stricter policy the same surfaces are tracked without the method. -/
theorem reduces_of_track (stricterPolicy : LeavesOut stricter policy target)
    (chosen : (track tree catalog policy names).outcome = .ok full)
    (chosenStrictly : (track tree catalog stricter names).outcome = .ok reduced)
    (declared : ¬ full.IsUsageKey target) : full.Reduces target reduced := by
  have known : ∀ name surface, full.get? name = some surface →
      ∃ less, reduced.get? name = some less ∧ surface.Reduces target name less := by
    intro name surface found
    rcases (get?_of_track chosen).1 found with ⟨listed, decl, offers, rfl⟩
    refine ⟨_, (get?_of_track chosenStrictly).2 ⟨listed, decl, offers, rfl⟩, ?_⟩
    apply narrow_reduces stricterPolicy
    rintro ⟨⟨kind, memberless⟩, rfl⟩
    exact declared ⟨rfl, _, found, by simp [TrackedSurface.narrow, TrackedSurface.ofDecl,
      TrackedSurface.isAnnotationType, kind], by simp [TrackedSurface.narrow,
      TrackedSurface.ofDecl, memberless]⟩
  apply reduces_of_get? _ known
  intro name unknown
  cases held : reduced.get? name with
  | none => rfl
  | some less =>
      rcases (get?_of_track chosenStrictly).1 held with ⟨listed, decl, offers, rfl⟩
      rw [(get?_of_track chosen).2 ⟨listed, decl, offers, rfl⟩] at unknown
      cases unknown

end TrackedSurfaces

/-! ## What a class file uses without the method -/

section Usages

variable {full reduced : TrackedSurfaces} {method target : TrackedMethod} {unit : ClassUnit}
  {site : CallSite}

/-- A call of another method stays a call of it. -/
theorem Calls.of_reduces (reduces : full.Reduces method reduced)
    (calls : Calls full unit target site) (differs : target ≠ method) :
    Calls reduced unit target site := by
  rcases calls with ⟨declared, code, decoded, invokes, refers, leads⟩
  refine .intro declared code decoded invokes refers ?_
  rw [TrackedSurfaces.declarer?_eq_of_reduces reduces, leads]
  intro top found
  rw [leads] at found
  cases found
  exact differs

/-- A call either led to the same surface before, or to the method that is left out. -/
theorem Calls.of_reduced (reduces : full.Reduces method reduced)
    (calls : Calls reduced unit target site) :
    Calls full unit target site ∨ target.key = method.key ∧ Calls full unit method site := by
  rcases calls with @⟨_, _, _, _, ref, _, declared, code, decoded, invokes, refers, leads⟩
  by_cases moved : ∃ top, full.declarer? ref.owner ⟨ref.name, ref.descriptor⟩ = some top ∧
      (⟨top, ⟨ref.name, ref.descriptor⟩⟩ : TrackedMethod) = method
  · rcases moved with ⟨top, found, rfl⟩
    exact .inr ⟨rfl, .intro declared code decoded invokes refers found⟩
  · refine .inl (.intro declared code decoded invokes refers ?_)
    rw [← leads, TrackedSurfaces.declarer?_eq_of_reduces reduces]
    intro top found same
    exact moved ⟨top, found, same⟩

/-- An annotation counts for the same other methods. -/
theorem mem_annotationTargets_of_reduces (reduces : full.Reduces method reduced)
    (differs : target ≠ method) (use : AnnotationUse) :
    target ∈ Usage.annotationTargets reduced use ↔ target ∈ Usage.annotationTargets full use := by
  rcases target with ⟨name, key⟩
  rw [Usage.mem_annotationTargets_iff, Usage.mem_annotationTargets_iff]
  have alike {surface less : TrackedSurface} (reduced : surface.Reduces method name less) :
      (less.isAnnotationType = true ∧ name = use.typeName ∧
        if less.hasMembers then key ∈ less.methods.elements ∧ use.sets key.name = true
        else key = .usage) ↔
      (surface.isAnnotationType = true ∧ name = use.typeName ∧
        if surface.hasMembers then key ∈ surface.methods.elements ∧ use.sets key.name = true
        else key = .usage) := by
    simp only [TrackedSurface.isAnnotationType, reduced.kind, reduced.hasMembers,
      reduced.methods key, and_iff_left differs]
  constructor
  · rintro ⟨less, known, counts⟩
    rcases reduces.exists_full known with ⟨surface, found, reduced⟩
    rw [← counts.2.1] at reduced
    exact ⟨surface, found, (alike reduced).1 counts⟩
  · rintro ⟨surface, known, counts⟩
    rcases reduces.exists_reduced known with ⟨less, found, reduced⟩
    rw [← counts.2.1] at reduced
    exact ⟨less, found, (alike reduced).2 counts⟩

/-- Annotations that count for a method in one choice of surfaces and in another are uses of it in
both. -/
theorem Annotates.of_counts (annotates : Annotates full unit target site)
    (counts : ∀ use, target ∈ Usage.annotationTargets full use →
      target ∈ Usage.annotationTargets reduced use) : Annotates reduced unit target site := by
  cases annotates with
  | onClass given counted => exact .onClass given (counts _ counted)
  | onMethod declared code given counted => exact .onMethod declared code given (counts _ counted)
  | onParameter declared code parameter given counted =>
      exact .onParameter declared code parameter given (counts _ counted)

/-- A class file uses the same other methods by its annotations. -/
theorem annotates_iff_of_reduces (reduces : full.Reduces method reduced)
    (differs : target ≠ method) :
    Annotates reduced unit target site ↔ Annotates full unit target site := by
  have alike := mem_annotationTargets_of_reduces reduces differs
  constructor
  · intro annotates
    exact annotates.of_counts fun use => (alike use).1
  · intro annotates
    exact annotates.of_counts fun use => (alike use).2

/-- A class file uses another method without the missing one as it did with it, but for calls that
led to the missing one. -/
theorem uses_of_reduced (reduces : full.Reduces method reduced) (differs : target ≠ method)
    (used : Calls reduced unit target site ∨ Annotates reduced unit target site) :
    (Calls full unit target site ∨ Annotates full unit target site) ∨
      target.key = method.key ∧ Calls full unit method site := by
  rcases used with calls | annotates
  · rcases calls.of_reduced reduces with before | moved
    · exact .inl (.inl before)
    · exact .inr moved
  · exact .inl (.inr ((annotates_iff_of_reduces reduces differs).1 annotates))

theorem uses_of_reduces (reduces : full.Reduces method reduced) (differs : target ≠ method)
    (used : Calls full unit target site ∨ Annotates full unit target site) :
    Calls reduced unit target site ∨ Annotates reduced unit target site := by
  rcases used with calls | annotates
  · exact .inl (calls.of_reduces reduces differs)
  · exact .inr ((annotates_iff_of_reduces reduces differs).2 annotates)

end Usages

/-! ## The report without the method -/

namespace CoverageReport

/-- Two reports of the same scan, of which the second does not have a method of the first. The call
sites of methods with other keys are the same. A method with the same key keeps its call sites and
may get those that the missing method has in the first report. -/
structure Lacks (method : TrackedMethod) (full reduced : CoverageReport) : Prop where
  surfaces : ∀ name, reduced.surfaces.contains name = true ↔ full.surfaces.contains name = true
  keys : ∀ name key, (reduced.calls? name key).isSome = true ↔
    (full.calls? name key).isSome = true ∧ (⟨name, key⟩ : TrackedMethod) ≠ method
  otherKeys : ∀ name key, key ≠ method.key → reduced.calls? name key = full.calls? name key
  keeps : ∀ name sites, name ≠ method.surface → full.calls? name method.key = some sites →
    ∃ more, reduced.calls? name method.key = some more ∧
      ∀ site ∈ sites.elements, site ∈ more.elements
  gains : ∀ name more site, reduced.calls? name method.key = some more → site ∈ more.elements →
    ∃ surface sites, (surface = name ∨ surface = method.surface) ∧
      full.calls? surface method.key = some sites ∧ site ∈ sites.elements

section Reports

variable {full reduced : TrackedSurfaces} {method : TrackedMethod} {units : List ClassUnit}

/-- The call sites of a method other than the missing one, in both reports. -/
theorem exists_calls?_of_reduces (reduces : full.Reduces method reduced) (units : List ClassUnit)
    (target : TrackedMethod) (tracks : full.Tracks target.surface target.key)
    (differs : target ≠ method) :
    ∃ sites more,
      (full.seedReport.scanAll full units).calls? target.surface target.key = some sites ∧
      (reduced.seedReport.scanAll reduced units).calls? target.surface target.key = some more ∧
      (∀ site ∈ sites.elements, site ∈ more.elements) ∧
      ∀ site ∈ more.elements, site ∈ sites.elements ∨
        target.key = method.key ∧ ∃ unit ∈ units, Calls full unit method site := by
  rcases exists_calls?_scanAll_seedReport tracks units with ⟨sites, found, members⟩
  rcases exists_calls?_scanAll_seedReport (reduces.tracks_iff.2 ⟨tracks, differs⟩) units with
    ⟨more, foundLess, membersLess⟩
  refine ⟨sites, more, found, foundLess, ?_, ?_⟩
  · intro site member
    rcases (members site).1 member with ⟨unit, scanned, used⟩
    exact (membersLess site).2 ⟨unit, scanned, uses_of_reduces reduces differs used⟩
  · intro site member
    rcases (membersLess site).1 member with ⟨unit, scanned, used⟩
    rcases uses_of_reduced reduces differs used with before | ⟨same, moved⟩
    · exact .inl ((members site).2 ⟨unit, scanned, before⟩)
    · exact .inr ⟨same, unit, scanned, moved⟩

/-- Methods with other keys have the same call sites in both reports. -/
theorem calls?_eq_of_reduces (reduces : full.Reduces method reduced) (units : List ClassUnit)
    (name : String) {key : MethodKey} (other : key ≠ method.key) :
    (reduced.seedReport.scanAll reduced units).calls? name key =
      (full.seedReport.scanAll full units).calls? name key := by
  have differs : (⟨name, key⟩ : TrackedMethod) ≠ method := by
    rintro rfl
    exact other rfl
  by_cases tracks : full.Tracks name key
  · rcases exists_calls?_of_reduces reduces units ⟨name, key⟩ tracks differs with
      ⟨sites, more, found, foundLess, keeps, gains⟩
    have equal : more = sites := by
      apply OrderedSet.ext_mem
      intro site
      constructor
      · intro member
        rcases gains site member with before | ⟨same, _⟩
        · exact before
        · exact absurd same other
      · exact keeps site
    rw [found, foundLess, equal]
  · have untracked : ¬ reduced.Tracks name key := fun tracksLess =>
      tracks (reduces.tracks_iff.1 tracksLess).1
    rw [((seededFrom_seedReport full).scanAll units).calls?_eq_none tracks,
      ((seededFrom_seedReport reduced).scanAll units).calls?_eq_none untracked]

/-- Scanning the same class files without a method gives the report without this method. -/
theorem lacks_of_reduces (reduces : full.Reduces method reduced) (units : List ClassUnit) :
    (full.seedReport.scanAll full units).Lacks method
      (reduced.seedReport.scanAll reduced units) := by
  have seeded := (seededFrom_seedReport full).scanAll units
  have seededLess := (seededFrom_seedReport reduced).scanAll units
  constructor
  case surfaces =>
    intro name
    rw [seeded.surfaces, seededLess.surfaces, reduces.isSome_get?]
  case keys =>
    intro name key
    rw [seeded.methods, seededLess.methods, reduces.tracks_iff]
  case otherKeys =>
    intro name key other
    exact calls?_eq_of_reduces reduces units name other
  case keeps =>
    intro name sites elsewhere found
    have differs : (⟨name, method.key⟩ : TrackedMethod) ≠ method := by
      rintro same
      exact elsewhere (congrArg TrackedMethod.surface same)
    rcases exists_calls?_of_reduces reduces units ⟨name, method.key⟩ (seeded.tracks found) differs
      with ⟨before, more, held, foundLess, keeps, _⟩
    rw [held] at found
    cases found
    exact ⟨more, foundLess, keeps⟩
  case gains =>
    intro name more site found member
    rcases reduces.tracks_iff.1 (seededLess.tracks found) with ⟨tracks, differs⟩
    rcases exists_calls?_of_reduces reduces units ⟨name, method.key⟩ tracks differs with
      ⟨sites, after, held, foundLess, _, gains⟩
    rw [foundLess] at found
    cases found
    rcases gains site member with before | ⟨_, unit, scanned, calls⟩
    · exact ⟨name, sites, .inl rfl, held, before⟩
    · -- The site belonged to the missing method.
      rcases exists_calls?_scanAll_seedReport calls.tracks units with ⟨lost, there, members⟩
      exact ⟨method.surface, lost, .inr rfl, there, (members site).2 ⟨unit, scanned, .inl calls⟩⟩

end Reports

/-- A stricter policy lets the same names be tracked. What it leaves out is missing from the report
of every scan, and nothing else changes but that calls of the missing method go on to a declaration
of the same method above. -/
theorem lacks_of_leavesOut {tree : FileTree} {catalog : SurfaceCatalog}
    {policy stricter : ExclusionPolicy} {target : TrackedMethod}
    (stricterPolicy : LeavesOut stricter policy target) (names : List String) :
    ((∃ full, (TrackedSurfaces.track tree catalog policy names).outcome = .ok full) ↔
      ∃ reduced, (TrackedSurfaces.track tree catalog stricter names).outcome = .ok reduced) ∧
    ∀ full reduced, (TrackedSurfaces.track tree catalog policy names).outcome = .ok full →
      (TrackedSurfaces.track tree catalog stricter names).outcome = .ok reduced →
      ¬ full.IsUsageKey target →
      ∀ units, (full.seedReport.scanAll full units).Lacks target
        (reduced.seedReport.scanAll reduced units) := by
  constructor
  · rw [TrackedSurfaces.exists_outcome_track_iff, TrackedSurfaces.exists_outcome_track_iff]
  · intro full reduced chosen chosenStrictly declared units
    exact lacks_of_reduces
      (TrackedSurfaces.reduces_of_track stricterPolicy chosen chosenStrictly declared) units

/-- The method that the sample class file calls. -/
def putDecl : MethodDecl := { name := "put", descriptor := "(I)V", access := .ofPublic }

/-- An interface that declares the method. -/
def overriddenDecl : SurfaceDecl := ⟨.interfaceType, [], [putDecl]⟩

/-- A class below the interface that overrides the method. -/
def overridingDecl : SurfaceDecl := ⟨.classType, ["a.Api"], [putDecl]⟩

/-- The interface and the class. -/
def overridingCatalog : SurfaceCatalog :=
  (SurfaceCatalog.empty.insert "a.Api" overriddenDecl).insert "a.Sub" overridingDecl

/-- Both surfaces with the method. -/
def overridingChoice : TrackedSurfaces :=
  (TrackedSurfaces.empty.insert "a.Api" sampleSurface).insert "a.Sub"
    ⟨.classType, ["a.Api"], OrderedSet.empty.insert ⟨"put", "(I)V"⟩, true⟩

/-- The same without the method of the class. -/
def inheritingChoice : TrackedSurfaces :=
  (TrackedSurfaces.empty.insert "a.Api" sampleSurface).insert "a.Sub"
    ⟨.classType, ["a.Api"], .empty, true⟩

/-- The policy that leaves out nothing. -/
def lenientPolicy : ExclusionPolicy := fun _ _ => none

/-- The overriding method. -/
def overridingMethod : TrackedMethod :=
  ⟨"a.Sub", ⟨"put", "(I)V"⟩⟩

/-- Under any policy, the two surfaces are tracked with the methods that the policy leaves. -/
theorem outcome_track_overridingCatalog (policy : ExclusionPolicy) :
    (TrackedSurfaces.track ⟨.emptyFolder, []⟩ overridingCatalog policy
      ["a.Api", "a.Sub"]).outcome =
      .ok ((TrackedSurfaces.empty.insert "a.Api" (.narrow policy "a.Api" overriddenDecl)).insert
        "a.Sub" (.narrow policy "a.Sub" overridingDecl)) := by
  have decodes : Descriptor.decodeOpen putDecl.descriptor = .ok ⟨.void, [.primitive .int]⟩ := by
    cbv
  have readable : TrackedSurface.Readable [putDecl] := by
    intro method member
    cases List.mem_singleton.1 member
    exact ⟨_, decodes⟩
  rw [TrackedSurfaces.outcome_track_eq_ok_iff,
    TrackedSurfaces.outcome_trackNames_cons_eq_ok_iff]
  refine ⟨overriddenDecl, ⟨rfl, readable⟩, ?_⟩
  rw [TrackedSurfaces.outcome_trackNames_cons_eq_ok_iff]
  exact ⟨overridingDecl, ⟨rfl, readable⟩, rfl⟩

theorem lacks_of_leavesOut_sample :
    let stricter := lenientPolicy.alsoListing overridingMethod
    let names := ["a.Api", "a.Sub"]
    LeavesOut stricter lenientPolicy overridingMethod ∧
      (TrackedSurfaces.track ⟨.emptyFolder, []⟩ overridingCatalog lenientPolicy names).outcome =
        .ok overridingChoice ∧
      (TrackedSurfaces.track ⟨.emptyFolder, []⟩ overridingCatalog stricter names).outcome =
        .ok inheritingChoice ∧
      ¬ overridingChoice.IsUsageKey overridingMethod ∧
      (overridingChoice.seedReport.scanAll overridingChoice [sampleUnit]).Lacks overridingMethod
        (inheritingChoice.seedReport.scanAll inheritingChoice [sampleUnit]) := by
  intro stricter names
  have chosen : (TrackedSurfaces.track ⟨.emptyFolder, []⟩ overridingCatalog lenientPolicy
      names).outcome = .ok overridingChoice :=
    outcome_track_overridingCatalog lenientPolicy
  have chosenStrictly : (TrackedSurfaces.track ⟨.emptyFolder, []⟩ overridingCatalog stricter
      names).outcome = .ok inheritingChoice :=
    outcome_track_overridingCatalog stricter
  have declared : ¬ overridingChoice.IsUsageKey overridingMethod := by
    rintro ⟨same, _⟩
    exact absurd same (by decide)
  have stricterPolicy := leavesOut_alsoListing lenientPolicy overridingMethod
  exact ⟨stricterPolicy, chosen, chosenStrictly, declared,
    (lacks_of_leavesOut stricterPolicy names).2 _ _ chosen chosenStrictly declared [sampleUnit]⟩

end CoverageReport

end ApiCoverage
