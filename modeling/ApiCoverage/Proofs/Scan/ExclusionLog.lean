import ApiCoverage.Proofs.Scan.Choice

/-!
# What the log says is excluded

A choice of surfaces logs every method that the policy leaves out. Together with the tracked methods
these are the declared ones. The two do not overlap, unless a surface declares a method more than
once and the policy decides differently on its declarations: both the log and the tracked surfaces
know a method by its key alone.
-/

namespace ApiCoverage

open ClassFile (MethodDecl)

/-! ## The exclusions in a log -/

namespace ScanLog

@[simp]
theorem exclusions_empty : empty.exclusions = [] :=
  rfl

@[simp]
theorem exclusions_append (first second : ScanLog) :
    (first ++ second).exclusions = first.exclusions ++ second.exclusions :=
  List.filterMap_append

/-- The log says that a method is excluded. -/
def Excludes (log : ScanLog) (name : String) (key : MethodKey) : Prop :=
  ∃ reason, (name, key, reason) ∈ log.exclusions

end ScanLog

/-- The log of a step after one that succeeds. -/
theorem Logged.log_bind_of_ok {α β : Type} {first : Logged α} {second : α → Logged β} {middle : α}
    (succeeds : first.outcome = .ok middle) :
    (first >>= second).log = first.log ++ (second middle).log := by
  change (first.andThen second).log = _
  rw [andThen, succeeds]

namespace TrackedSurface

variable {policy : ExclusionPolicy} {type : String} {methods : List MethodDecl}

/-- The methods of a type that a policy leaves out, with the reasons. -/
def dropped (policy : ExclusionPolicy) (type : String) (methods : List MethodDecl) :
    List (String × MethodKey × ExclusionReason) :=
  methods.filterMap fun method => (policy type method).map fun reason =>
    (type, .ofDecl method, reason)

theorem mem_dropped_iff {name : String} {key : MethodKey} {reason : ExclusionReason} :
    (name, key, reason) ∈ dropped policy type methods ↔
      name = type ∧ ∃ method ∈ methods, policy type method = some reason ∧ .ofDecl method = key := by
  simp only [dropped, List.mem_filterMap, Option.map_eq_some_iff, Prod.mk.injEq]
  constructor
  · rintro ⟨method, member, _, decided, rfl, same, rfl⟩
    exact ⟨rfl, method, member, decided, same⟩
  · rintro ⟨rfl, method, member, decided, same⟩
    exact ⟨method, member, reason, decided, rfl, same, rfl⟩

/-- The events for the methods of a type that a policy leaves out, in the order of the methods. -/
def exclusionEvents (policy : ExclusionPolicy) (type : String) (methods : List MethodDecl) :
    List ScanEvent :=
  methods.filterMap fun method => (policy type method).map fun reason =>
    .methodExcluded type (.ofDecl method) reason

/-- The log of the methods of a surface has an event for each that is left out, and nothing else. -/
theorem log_trackMethods {kept result : OrderedSet MethodKey}
    (chosen : (trackMethods policy type kept methods).outcome = .ok result) :
    (trackMethods policy type kept methods).log = ⟨exclusionEvents policy type methods, 0⟩ := by
  induction methods generalizing kept with
  | nil => rfl
  | cons method rest ih =>
      unfold trackMethods at chosen ⊢
      cases read : Descriptor.decodeOpen method.descriptor with
      | error fault =>
          rw [read] at chosen
          cases chosen
      | ok signature =>
          simp only [read] at chosen ⊢
          cases decided : policy type method with
          | none =>
              simp only [decided] at chosen ⊢
              rw [ih chosen]
              simp [exclusionEvents, decided]
          | some reason =>
              simp only [decided] at chosen ⊢
              rcases Logged.outcome_bind_eq_ok_iff.1 chosen with ⟨_, logged, chosen⟩
              have first : exclusionEvents policy type (method :: rest) =
                  .methodExcluded type (.ofDecl method) reason ::
                    exclusionEvents policy type rest := by
                simp [exclusionEvents, decided]
              rw [Logged.log_bind_of_ok logged, ih chosen, first]
              rfl

/-- The methods of a surface are logged in the order of their declaration. -/
theorem exclusions_trackMethods {kept result : OrderedSet MethodKey}
    (chosen : (trackMethods policy type kept methods).outcome = .ok result) :
    (trackMethods policy type kept methods).log.exclusions = dropped policy type methods := by
  rw [log_trackMethods chosen, ScanLog.exclusions, exclusionEvents, dropped, List.filterMap_filterMap]
  refine List.filterMap_congr fun method _ => ?_
  cases policy type method <;> rfl

end TrackedSurface

namespace TrackedSurfaces

variable {tree : FileTree} {catalog : SurfaceCatalog} {policy : ExclusionPolicy}
  {tracked result : TrackedSurfaces} {names : List String} {name : String} {key : MethodKey}
  {reason : ExclusionReason}

/-- The log of a list of names has what the policy leaves out of the declarations of the names. -/
theorem mem_exclusions_trackNames_iff
    (chosen : (trackNames tree catalog policy tracked names).outcome = .ok result) :
    (name, key, reason) ∈ (trackNames tree catalog policy tracked names).log.exclusions ↔
      (∃ listed ∈ names, Text.trim listed = name) ∧ ∃ decl, Offers tree catalog name decl ∧
        ∃ method ∈ decl.methods, policy name method = some reason ∧ .ofDecl method = key := by
  induction names generalizing tracked with
  | nil => simp [trackNames, pure]
  | cons first rest ih =>
      rw [trackNames] at chosen ⊢
      rcases Logged.outcome_bind_eq_ok_iff.1 chosen with ⟨decl, resolved, chosen⟩
      rcases Logged.outcome_bind_eq_ok_iff.1 chosen with ⟨methods, kept, chosen⟩
      have offers : Offers tree catalog (Text.trim first) decl :=
        ⟨resolved, (TrackedSurface.outcome_trackMethods_eq_ok_iff.1 kept).1⟩
      rw [Logged.log_bind_of_ok resolved, Logged.log_bind_of_ok kept, ScanLog.exclusions_append,
        ScanLog.exclusions_append, TrackedSurface.exclusions_trackMethods kept, List.mem_append,
        List.mem_append, ih chosen, TrackedSurface.mem_dropped_iff]
      simp only [Logged.ofExcept, ScanLog.exclusions_empty, List.not_mem_nil, false_or]
      constructor
      · rintro (⟨rfl, excluded⟩ | ⟨⟨listed, member, same⟩, given⟩)
        · exact ⟨⟨first, List.mem_cons_self, rfl⟩, decl, offers, excluded⟩
        · exact ⟨⟨listed, List.mem_cons_of_mem _ member, same⟩, given⟩
      · rintro ⟨⟨listed, member, rfl⟩, other, otherOffers, excluded⟩
        rcases List.mem_cons.1 member with rfl | later
        · cases offers.unique otherOffers
          exact .inl ⟨rfl, excluded⟩
        · exact .inr ⟨⟨listed, later, rfl⟩, other, otherOffers, excluded⟩

/-- The log of a choice of surfaces has what the policy leaves out of their declarations. -/
theorem mem_exclusions_track_iff
    (chosen : (track tree catalog policy names).outcome = .ok result) :
    (name, key, reason) ∈ (track tree catalog policy names).log.exclusions ↔
      (∃ listed ∈ names, Text.trim listed = name) ∧ ∃ decl, Offers tree catalog name decl ∧
        ∃ method ∈ decl.methods, policy name method = some reason ∧ .ofDecl method = key := by
  have named := outcome_track chosen
  rw [← mem_exclusions_trackNames_iff named, track, Logged.log_bind_of_ok named,
    ScanLog.exclusions_append, List.mem_append]
  -- The event that may follow is no exclusion.
  refine or_iff_left ?_
  split
  · exact List.not_mem_nil
  · exact List.not_mem_nil

/-- A policy decides alike on the methods of a type that have the same key. -/
def DecidesByKey (policy : ExclusionPolicy) (type : String) (methods : List MethodDecl) : Prop :=
  ∀ first ∈ methods, ∀ second ∈ methods, MethodKey.ofDecl first = .ofDecl second →
    policy type first = none → policy type second = none

/-- Where all keys differ, every policy decides by key. -/
theorem decidesByKey_of_nodup {methods : List MethodDecl}
    (distinct : (methods.map MethodKey.ofDecl).Nodup) : DecidesByKey policy name methods := by
  intro first memberFirst second memberSecond same kept
  rwa [← List.inj_on_of_nodup_map distinct memberFirst memberSecond same]

/-- The declared methods of a tracked surface are those that are tracked and those that the log says
are excluded. No method is both exactly if the policy decides by key. -/
theorem tracked_or_excluded_of_track {surface : TrackedSurface}
    (chosen : (track tree catalog policy names).outcome = .ok tracked)
    (found : tracked.get? name = some surface) :
    ∃ decl, Offers tree catalog name decl ∧
      (∀ key, key ∈ surface.methods.elements ∨
          (track tree catalog policy names).log.Excludes name key ↔
        (∃ method ∈ decl.methods, .ofDecl method = key) ∨
          (decl.kind = .annotationType ∧ decl.methods = []) ∧ key = .usage) ∧
      ((∀ key ∈ surface.methods.elements,
          ¬ (track tree catalog policy names).log.Excludes name key) ↔
        DecidesByKey policy name decl.methods) := by
  rcases (get?_of_track chosen).1 found with ⟨listed, decl, offers, rfl⟩
  have excludes (key : MethodKey) : (track tree catalog policy names).log.Excludes name key ↔
      ∃ method ∈ decl.methods, policy name method ≠ none ∧ .ofDecl method = key := by
    simp only [ScanLog.Excludes, mem_exclusions_track_iff chosen, Option.ne_none_iff_exists']
    constructor
    · rintro ⟨reason, _, other, otherOffers, method, member, decided, same⟩
      cases offers.unique otherOffers
      exact ⟨method, member, ⟨reason, decided⟩, same⟩
    · rintro ⟨method, member, ⟨reason, decided⟩, same⟩
      exact ⟨reason, listed, decl, offers, method, member, decided, same⟩
  refine ⟨decl, offers, ?_, ?_⟩
  · intro key
    rw [TrackedSurface.mem_methods_narrow_iff, excludes]
    constructor
    · rintro ((⟨method, member, _, same⟩ | byUse) | ⟨method, member, _, same⟩)
      · exact .inl ⟨method, member, same⟩
      · exact .inr byUse
      · exact .inl ⟨method, member, same⟩
    · rintro (⟨method, member, same⟩ | byUse)
      · by_cases decided : policy name method = none
        · exact .inl (.inl ⟨method, member, decided, same⟩)
        · exact .inr ⟨method, member, decided, same⟩
      · exact .inl (.inr byUse)
  · simp only [TrackedSurface.mem_methods_narrow_iff, excludes]
    constructor
    · intro disjoint first memberFirst second memberSecond same kept
      by_contra leftOut
      exact disjoint _ (.inl ⟨first, memberFirst, kept, rfl⟩)
        ⟨second, memberSecond, leftOut, same.symm⟩
    · rintro byKey key (⟨first, memberFirst, kept, rfl⟩ | ⟨⟨_, memberless⟩, _⟩)
        ⟨second, memberSecond, leftOut, same⟩
      · exact leftOut (byKey first memberFirst second memberSecond same.symm kept)
      · rw [memberless] at memberSecond
        cases memberSecond

/-- A method of the shop without parameters and without a result. -/
def shopMethod (name : String) (access : DeclaredAccess) : MethodDecl :=
  { name, descriptor := "()V", access := access.flags }

theorem readable_of_plain {methods : List MethodDecl}
    (plain : ∀ method ∈ methods, method.descriptor = "()V") : TrackedSurface.Readable methods := by
  have decodes : Descriptor.decodeOpen "()V" = .ok ⟨.void, []⟩ := by cbv
  exact fun method member => ⟨_, (plain method member).symm ▸ decodes⟩

theorem tracked_or_excluded_of_track_sample :
    let methods := [shopMethod "sell" .publicAccess, shopMethod "count" .privateAccess]
    let tracked := empty.insert "a.Shop" (shopSurface methods)
    (shopTrack methods).outcome = .ok tracked ∧
      tracked.get? "a.Shop" = some (shopSurface methods) ∧
      ∃ decl, Offers ⟨.emptyFolder, []⟩ (shopCatalog methods) "a.Shop" decl ∧
        (∀ key, key ∈ (shopSurface methods).methods.elements ∨
            (shopTrack methods).log.Excludes "a.Shop" key ↔
          (∃ method ∈ decl.methods, .ofDecl method = key) ∨
            (decl.kind = .annotationType ∧ decl.methods = []) ∧ key = .usage) ∧
        ((∀ key ∈ (shopSurface methods).methods.elements,
            ¬ (shopTrack methods).log.Excludes "a.Shop" key) ↔
          DecidesByKey (baseExclusion false) "a.Shop" decl.methods) ∧
        DecidesByKey (baseExclusion false) "a.Shop" decl.methods := by
  intro methods tracked
  have readable : TrackedSurface.Readable methods := readable_of_plain (by decide)
  have chosen : (shopTrack methods).outcome = .ok tracked := outcome_shopTrack readable
  have found : tracked.get? "a.Shop" = some (shopSurface methods) := OrderedMap.get?_insert_self
  rcases tracked_or_excluded_of_track chosen found with ⟨decl, offers, covers, disjoint⟩
  cases offers.unique (offers_shopCatalog readable)
  exact ⟨chosen, found, _, offers, covers, disjoint, decidesByKey_of_nodup (by decide)⟩

/-- A class that declares a public method once more as private tracks the method, and the log says
that it is excluded. -/
theorem tracked_and_excluded_of_track :
    let methods := [shopMethod "sell" .publicAccess, shopMethod "sell" .privateAccess]
    let tracked := empty.insert "a.Shop" (shopSurface methods)
    (shopTrack methods).outcome = .ok tracked ∧
      tracked.get? "a.Shop" = some (shopSurface methods) ∧
      ⟨"sell", "()V"⟩ ∈ (shopSurface methods).methods.elements ∧
      ("a.Shop", ⟨"sell", "()V"⟩, .notPublic) ∈ (shopTrack methods).log.exclusions := by
  intro methods tracked
  have readable : TrackedSurface.Readable methods := readable_of_plain (by decide)
  have chosen : (shopTrack methods).outcome = .ok tracked := outcome_shopTrack readable
  have found : tracked.get? "a.Shop" = some (shopSurface methods) := OrderedMap.get?_insert_self
  have listed := ((get?_of_track chosen).1 found).1
  refine ⟨chosen, found, TrackedSurface.mem_methods_narrow_iff.2 (.inl ?_),
    (mem_exclusions_track_iff chosen).2 ⟨listed, _, offers_shopCatalog readable, ?_⟩⟩
  · exact ⟨shopMethod "sell" .publicAccess, by simp [methods], by decide, rfl⟩
  · exact ⟨shopMethod "sell" .privateAccess, by simp [methods], by decide, rfl⟩

end TrackedSurfaces

end ApiCoverage
