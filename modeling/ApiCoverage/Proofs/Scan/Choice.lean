import ApiCoverage.Proofs.Scan.Tracking

/-!
# What is chosen for a scan

A list of names can be tracked when each of them resolves to a declaration whose descriptors can all
be read. The surfaces that are tracked then are the declarations of the names, each reduced to the
methods that the exclusion policy leaves. Neither the order nor the number of the names plays a part.
-/

namespace ApiCoverage

open ClassFile (MethodDecl)

namespace TrackedSurface

/-- The keys of the methods of a type that a policy leaves. -/
def keptKeys (policy : ExclusionPolicy) (type : String) (methods : List MethodDecl) :
    List MethodKey :=
  (methods.filter fun method => (policy type method).isNone).map .ofDecl

theorem mem_keptKeys_iff {policy : ExclusionPolicy} {type : String} {methods : List MethodDecl}
    {key : MethodKey} :
    key ∈ keptKeys policy type methods ↔
      ∃ method ∈ methods, policy type method = none ∧ .ofDecl method = key := by
  simp [keptKeys, and_assoc]

/-- A declaration reduced to the methods that a policy leaves. -/
def narrow (policy : ExclusionPolicy) (type : String) (decl : SurfaceDecl) : TrackedSurface :=
  ofDecl decl (.ofList (keptKeys policy type decl.methods))

theorem mem_methods_ofDecl_iff {decl : SurfaceDecl} {methods : OrderedSet MethodKey}
    {key : MethodKey} :
    key ∈ (ofDecl decl methods).methods.elements ↔
      key ∈ methods.elements ∨
        (decl.kind = .annotationType ∧ decl.methods = []) ∧ key = .usage := by
  by_cases byUse : decl.kind = .annotationType ∧ decl.methods = []
  · simp [ofDecl, byUse, or_comm]
  · simp [ofDecl, byUse]

/-- Tracked are the methods that the policy leaves, and the usage key of an annotation type without
methods. -/
theorem mem_methods_narrow_iff {policy : ExclusionPolicy} {type : String} {decl : SurfaceDecl}
    {key : MethodKey} :
    key ∈ (narrow policy type decl).methods.elements ↔
      (∃ method ∈ decl.methods, policy type method = none ∧ .ofDecl method = key) ∨
        (decl.kind = .annotationType ∧ decl.methods = []) ∧ key = .usage := by
  rw [narrow, mem_methods_ofDecl_iff, OrderedSet.mem_ofList, mem_keptKeys_iff]

/-- Whether every method has a descriptor that can be read. -/
def Readable (methods : List MethodDecl) : Prop :=
  ∀ method ∈ methods, ∃ signature, Descriptor.decodeOpen method.descriptor = .ok signature

/-- The methods of a surface can be tracked when all descriptors can be read, those of excluded
methods as well; the policy only decides which of the methods are kept. -/
theorem outcome_trackMethods_eq_ok_iff {policy : ExclusionPolicy} {type : String}
    {kept result : OrderedSet MethodKey} {methods : List MethodDecl} :
    (trackMethods policy type kept methods).outcome = .ok result ↔
      Readable methods ∧ result = (keptKeys policy type methods).foldl .insert kept := by
  induction methods generalizing kept with
  | nil =>
      change Except.ok kept = .ok result ↔ _
      simp [Readable, keptKeys, eq_comm]
  | cons method rest ih =>
      simp only [Readable, List.forall_mem_cons]
      rw [← Readable]
      unfold trackMethods
      cases read : Descriptor.decodeOpen method.descriptor with
      | error fault =>
          simp [Logged.fail]
      | ok signature =>
          cases decided : policy type method with
          | none => simp [ih, keptKeys, decided]
          | some reason =>
              simp [Logged.outcome_bind_eq_ok_iff, ih, keptKeys, decided, Logged.event]

end TrackedSurface

namespace TrackedSurfaces

variable {tree : FileTree} {catalog : SurfaceCatalog} {policy : ExclusionPolicy}
  {tracked result : TrackedSurfaces} {names : List String} {name : String}

/-- A name resolves to a declaration whose descriptors can all be read. -/
def Offers (tree : FileTree) (catalog : SurfaceCatalog) (name : String) (decl : SurfaceDecl) :
    Prop :=
  catalog.resolve tree name = .ok decl ∧ TrackedSurface.Readable decl.methods

theorem Offers.unique {first second : SurfaceDecl} (left : Offers tree catalog name first)
    (right : Offers tree catalog name second) : first = second :=
  Except.ok.inj (left.1.symm.trans right.1)

/-- A surface is tracked for a name of a list: the declaration of the name, reduced to the methods
that the policy leaves. -/
def Chosen (tree : FileTree) (catalog : SurfaceCatalog) (policy : ExclusionPolicy)
    (names : List String) (name : String) (surface : TrackedSurface) : Prop :=
  (∃ listed ∈ names, Text.trim listed = name) ∧
    ∃ decl, Offers tree catalog name decl ∧ surface = .narrow policy name decl

/-- The first name of a list is tracked before the others. -/
theorem outcome_trackNames_cons_eq_ok_iff {rest : List String} :
    (trackNames tree catalog policy tracked (name :: rest)).outcome = .ok result ↔
      ∃ decl, Offers tree catalog (Text.trim name) decl ∧
        (trackNames tree catalog policy
          (tracked.insert (Text.trim name) (.narrow policy (Text.trim name) decl))
          rest).outcome = .ok result := by
  rw [trackNames]
  simp only [Logged.outcome_bind_eq_ok_iff, Logged.ofExcept,
    TrackedSurface.outcome_trackMethods_eq_ok_iff]
  constructor
  · rintro ⟨decl, resolved, methods, ⟨readable, rfl⟩, chosen⟩
    exact ⟨decl, ⟨resolved, readable⟩, chosen⟩
  · rintro ⟨decl, ⟨resolved, readable⟩, chosen⟩
    exact ⟨decl, resolved, _, ⟨readable, rfl⟩, chosen⟩

/-- A list of names can be tracked when each of its names can. -/
theorem exists_outcome_trackNames_iff :
    (∃ result, (trackNames tree catalog policy tracked names).outcome = .ok result) ↔
      ∀ listed ∈ names, ∃ decl, Offers tree catalog (Text.trim listed) decl := by
  induction names generalizing tracked with
  | nil => simp [trackNames, pure]
  | cons name rest ih =>
      simp only [outcome_trackNames_cons_eq_ok_iff, List.forall_mem_cons]
      rw [exists_comm]
      simp only [exists_and_left, ih]
      rw [exists_and_right]

/-- Tracking a list of names puts the surfaces of the names in place and keeps all others. -/
theorem get?_of_trackNames {surface : TrackedSurface}
    (chosen : (trackNames tree catalog policy tracked names).outcome = .ok result) :
    result.get? name = some surface ↔
      Chosen tree catalog policy names name surface ∨
        (∀ listed ∈ names, Text.trim listed ≠ name) ∧ tracked.get? name = some surface := by
  induction names generalizing tracked with
  | nil =>
      cases chosen
      simp [Chosen]
  | cons first rest ih =>
      rcases outcome_trackNames_cons_eq_ok_iff.1 chosen with ⟨decl, offers, chosen⟩
      rw [ih chosen]
      by_cases same : Text.trim first = name
      · -- The first name gives the same surface as the later ones of its kind.
        subst same
        have held : (tracked.insert (Text.trim first) (.narrow policy (Text.trim first) decl)).get?
            (Text.trim first) = some (.narrow policy (Text.trim first) decl) :=
          OrderedMap.get?_insert_self
        have listed : ∃ listed ∈ first :: rest, Text.trim listed = Text.trim first :=
          ⟨first, List.mem_cons_self, rfl⟩
        rw [held]
        constructor
        · rintro (⟨_, given⟩ | ⟨_, equal⟩)
          · exact .inl ⟨listed, given⟩
          · exact .inl ⟨listed, decl, offers, (Option.some.inj equal).symm⟩
        · rintro (⟨_, other, otherOffers, rfl⟩ | ⟨absent, _⟩)
          · cases offers.unique otherOffers
            by_cases again : ∃ listed ∈ rest, Text.trim listed = Text.trim first
            · exact .inl ⟨again, decl, offers, rfl⟩
            · exact .inr ⟨fun listed member equal => again ⟨listed, member, equal⟩, rfl⟩
          · exact absurd rfl (absent first List.mem_cons_self)
      · have held : (tracked.insert (Text.trim first) (.narrow policy (Text.trim first) decl)).get?
            name = tracked.get? name :=
          OrderedMap.get?_insert_of_ne (Ne.symm same)
        rw [held]
        simp [Chosen, same]

/-- That nothing is tracked is logged, but it is no failure. -/
theorem outcome_track_eq_ok_iff :
    (track tree catalog policy names).outcome = .ok result ↔
      (trackNames tree catalog policy .empty names).outcome = .ok result := by
  refine ⟨outcome_track, ?_⟩
  intro named
  refine Logged.outcome_bind_eq_ok_iff.2 ⟨result, named, ?_⟩
  split <;> rfl

/-- What can be tracked does not depend on the policy. -/
theorem exists_outcome_track_iff :
    (∃ result, (track tree catalog policy names).outcome = .ok result) ↔
      ∀ listed ∈ names, ∃ decl, Offers tree catalog (Text.trim listed) decl := by
  simp only [outcome_track_eq_ok_iff, exists_outcome_trackNames_iff]

/-- One name that resolves is tracked on its own. -/
theorem outcome_track_singleton {decl : SurfaceDecl}
    (offers : Offers tree catalog (Text.trim name) decl) :
    (track tree catalog policy [name]).outcome =
      .ok (empty.insert (Text.trim name) (.narrow policy (Text.trim name) decl)) := by
  rw [outcome_track_eq_ok_iff, outcome_trackNames_cons_eq_ok_iff]
  exact ⟨decl, offers, rfl⟩

/-- The tracked surfaces are those of the names. -/
theorem get?_of_track {surface : TrackedSurface}
    (chosen : (track tree catalog policy names).outcome = .ok result) :
    result.get? name = some surface ↔ Chosen tree catalog policy names name surface := by
  rw [get?_of_trackNames (outcome_track chosen)]
  simp [get?, empty]

/-! ## A catalog with one class -/

/-- A catalog with a class that has the given methods. -/
def shopCatalog (methods : List MethodDecl) : SurfaceCatalog :=
  SurfaceCatalog.empty.insert "a.Shop" ⟨.classType, [], methods⟩

/-- The choice of the class under the base policy. -/
def shopTrack (methods : List MethodDecl) : Logged TrackedSurfaces :=
  track ⟨.emptyFolder, []⟩ (shopCatalog methods) (baseExclusion false) ["a.Shop"]

/-- The class with the methods that the base policy leaves. -/
def shopSurface (methods : List MethodDecl) : TrackedSurface :=
  .narrow (baseExclusion false) "a.Shop" ⟨.classType, [], methods⟩

theorem offers_shopCatalog {methods : List MethodDecl}
    (readable : TrackedSurface.Readable methods) :
    Offers ⟨.emptyFolder, []⟩ (shopCatalog methods) "a.Shop" ⟨.classType, [], methods⟩ :=
  ⟨rfl, readable⟩

theorem outcome_shopTrack {methods : List MethodDecl}
    (readable : TrackedSurface.Readable methods) :
    (shopTrack methods).outcome = .ok (empty.insert "a.Shop" (shopSurface methods)) :=
  outcome_track_singleton (offers_shopCatalog readable)

end TrackedSurfaces

end ApiCoverage
