import ApiCoverage.Proofs.Surface.Tracked

/-!
# Which surfaces a call can lead to

From the type that a call names, the search for the declarer may go up through super types for as
long as they are tracked. What it may reach so is stated as a relation between names, and the search
answers exactly when it may reach a surface that tracks the method: entering a surface only once
loses nothing, because a way up that comes through a surface twice can leave out what lies between.
-/

namespace ApiCoverage.TrackedSurfaces

/-- One gets from a surface up to another: each surface on the way is there and lists the next among
its super types. -/
inductive Climbs (surface? : String → Option TrackedSurface) : String → String → Prop where
  | here {name : String} {surface : TrackedSurface} (known : surface? name = some surface) :
      Climbs surface? name name
  | up {name next top : String} {surface : TrackedSurface} (known : surface? name = some surface)
      (listed : next ∈ surface.supers) (rest : Climbs surface? next top) : Climbs surface? name top

/-- One gets from a type up to another through tracked surfaces. -/
abbrev Ascends (tracked : TrackedSurfaces) : String → String → Prop :=
  Climbs tracked.get?

/-- The entries of the map, looked through in order, answer as the map does. -/
theorem lookup_entries (tracked : TrackedSurfaces) :
    (fun name => tracked.surfaces.entries.lookup name) = tracked.get? := by
  funext name
  apply Option.ext
  intro surface
  rw [get?_eq_some_iff]
  constructor
  · intro found
    rcases List.lookup_eq_some_iff.1 found with ⟨before, after, shape, _⟩
    simp [shape]
  · intro member
    rcases List.append_of_mem member with ⟨before, after, shape⟩
    refine List.lookup_eq_some_iff.2 ⟨before, after, shape, ?_⟩
    intro entry earlier
    have below := tracked.surfaces.increasing
    rw [shape, List.pairwise_append] at below
    have smaller := below.2.2 entry earlier (name, surface) List.mem_cons_self
    rw [bne_iff_ne]
    rintro rfl
    simp [Std.ReflCmp.compare_self] at smaller

theorem lookup_entries_eq_get? (tracked : TrackedSurfaces) (name : String) :
    tracked.surfaces.entries.lookup name = tracked.get? name :=
  congrFun (lookup_entries tracked) name

theorem lookup_without {name other : String} {surfaces : List (String × TrackedSurface)} :
    (without name surfaces).lookup other =
      if other = name then none else surfaces.lookup other := by
  induction surfaces with
  | nil => simp [without]
  | cons head rest ih =>
      rcases head with ⟨first, surface⟩
      by_cases same : first = name
      · have left : without name ((first, surface) :: rest) = without name rest := by
          simp [without, same]
        rw [left, ih]
        split
        · rfl
        · next differs =>
            have passed : (other == first) = false := beq_false_of_ne (same ▸ differs)
            rw [List.lookup_cons, passed]
      · have kept :
            without name ((first, surface) :: rest) = (first, surface) :: without name rest := by
          simp [without, same]
        rw [kept, List.lookup_cons, List.lookup_cons, ih]
        by_cases hit : other = first
        · simp [hit, same]
        · rw [beq_false_of_ne hit]

/-- A way up is also one among more surfaces. -/
theorem Climbs.mono {fewer more : String → Option TrackedSurface} {name top : String}
    (climbs : Climbs fewer name top)
    (within : ∀ name surface, fewer name = some surface → more name = some surface) :
    Climbs more name top := by
  induction climbs with
  | here known => exact .here (within _ _ known)
  | up known listed _ ih => exact .up (within _ _ known) listed ih

/-- A way up that meets a surface may start at a super type of it, at its last meeting, unless it
ends there. -/
theorem Climbs.leave {fresh : List (String × TrackedSurface)} {name first top : String}
    {surface : TrackedSurface} (known : fresh.lookup name = some surface)
    (climbs : Climbs (fun name => fresh.lookup name) first top) :
    top = name ∨ Climbs (fun other => (without name fresh).lookup other) first top ∨
      ∃ next ∈ surface.supers,
        Climbs (fun other => (without name fresh).lookup other) next top := by
  induction climbs with
  | @here first entered found =>
      by_cases same : first = name
      · exact .inl same
      · have kept : (without name fresh).lookup first = some entered := by
          rw [lookup_without, if_neg same]
          exact found
        exact .inr (.inl (.here kept))
  | @up first next top entered found listed _ ih =>
      rcases ih with ends | clear | later
      · exact .inl ends
      · by_cases same : first = name
        · subst same
          rw [known] at found
          cases found
          exact .inr (.inr ⟨next, listed, clear⟩)
        · have kept : (without name fresh).lookup first = some entered := by
            rw [lookup_without, if_neg same]
            exact found
          exact .inr (.inl (.up kept listed clear))
      · exact .inr (.inr later)

/-- A search ends at a surface above one of the names that it starts from. -/
theorem exists_climbs_of_search {key : MethodKey} {fresh : List (String × TrackedSurface)}
    {names : List String} {top : String} (result : search key fresh names = some top) :
    ∃ first ∈ names, Climbs (fun name => fresh.lookup name) first top := by
  fun_induction search key fresh names with
  | case1 fresh => cases result
  | case2 fresh name others unknown ih =>
      rcases ih result with ⟨first, member, climbs⟩
      exact ⟨first, List.mem_cons_of_mem _ member, climbs⟩
  | case3 fresh name others surface known tracks =>
      cases result
      exact ⟨_, List.mem_cons_self, .here known⟩
  | case4 fresh name others surface known skips ih =>
      have within : ∀ other found, (without name fresh).lookup other = some found →
          fresh.lookup other = some found := by
        intro other found present
        rw [lookup_without] at present
        split at present
        · cases present
        · exact present
      rcases ih result with ⟨first, member, climbs⟩
      rcases List.mem_append.1 member with listed | later
      · exact ⟨_, List.mem_cons_self, .up known listed (climbs.mono within)⟩
      · exact ⟨first, List.mem_cons_of_mem _ later, climbs.mono within⟩

/-- A search without a result has passed by no surface that tracks the method. -/
theorem not_mem_of_search_eq_none {key : MethodKey} {fresh : List (String × TrackedSurface)}
    {names : List String} (result : search key fresh names = none) {first top : String}
    (member : first ∈ names) (climbs : Climbs (fun name => fresh.lookup name) first top)
    {declarer : TrackedSurface} (found : fresh.lookup top = some declarer) :
    key ∉ declarer.methods.elements := by
  -- Entering a surface makes it unavailable, so the way up is cut at its last meeting with it.
  fun_induction search key fresh names generalizing first declarer with
  | case1 fresh => cases member
  | case2 fresh name others unknown ih =>
      rcases List.mem_cons.1 member with rfl | later
      · cases climbs with
        | here known | up known => rw [unknown] at known; cases known
      · exact ih result later climbs found
  | case3 => cases result
  | case4 fresh name others surface known skips ih =>
      rcases climbs.leave known with rfl | clear
      · rw [known] at found
        cases found
        rwa [OrderedSet.contains_iff_mem] at skips
      · by_cases entered : top = name
        · subst entered
          rw [known] at found
          cases found
          rwa [OrderedSet.contains_iff_mem] at skips
        · have kept : (without name fresh).lookup top = some declarer := by
            rw [lookup_without, if_neg entered]
            exact found
          rcases clear with clear | ⟨next, listed, clear⟩
          · rcases List.mem_cons.1 member with rfl | later
            · cases clear with
              | here gone | up gone => simp [lookup_without] at gone
            · exact ih result (List.mem_append_right _ later) clear kept
          · exact ih result (List.mem_append_left _ listed) clear kept

theorem search_cons_of_unknown {key : MethodKey} {fresh : List (String × TrackedSurface)}
    {name : String} (others : List String) (unknown : fresh.lookup name = none) :
    search key fresh (name :: others) = search key fresh others := by
  rw [search]
  split
  · rfl
  · next known =>
      rw [unknown] at known
      cases known

theorem search_cons_of_known {key : MethodKey} {fresh : List (String × TrackedSurface)}
    {name : String} {surface : TrackedSurface} (others : List String)
    (known : fresh.lookup name = some surface) :
    search key fresh (name :: others) =
      if surface.methods.contains key then some name
      else search key (without name fresh) (surface.supers ++ others) := by
  rw [search]
  split
  · next unknown =>
      rw [unknown] at known
      cases known
  · next found =>
      rw [found] at known
      cases known
      rfl

/-- A call leads to a surface exactly when some surface above its type tracks the method, and the
surface that it leads to is one of these. -/
theorem declarer?_iff_ascends (tracked : TrackedSurfaces) (owner : String) (key : MethodKey) :
    ((tracked.declarer? owner key).isSome = true ↔
        ∃ top, tracked.Ascends owner top ∧ tracked.Tracks top key) ∧
      ∀ top, tracked.declarer? owner key = some top → tracked.Ascends owner top ∧
        ∃ surface, tracked.get? top = some surface ∧ key ∈ surface.methods.elements := by
  have sound : ∀ top, tracked.declarer? owner key = some top →
      tracked.Ascends owner top ∧ tracked.Tracks top key := by
    intro top found
    rcases exists_climbs_of_search found with ⟨first, member, climbs⟩
    rw [List.mem_singleton.1 member, lookup_entries] at climbs
    exact ⟨climbs, tracks_of_declarer? found⟩
  refine ⟨⟨?_, ?_⟩, sound⟩
  · intro found
    rcases Option.isSome_iff_exists.1 found with ⟨top, found⟩
    exact ⟨top, sound top found⟩
  · rintro ⟨top, ascends, declarer, known, tracks⟩
    rw [Ascends, ← lookup_entries] at ascends
    rw [← lookup_entries] at known
    cases answer : tracked.declarer? owner key with
    | none =>
        have skips := not_mem_of_search_eq_none answer List.mem_cons_self ascends known
        exact absurd tracks skips
    | some found => rfl

/-- A call of a method that its type tracks leads to this type. -/
theorem declarer?_eq_self {tracked : TrackedSurfaces} {name : String} {key : MethodKey}
    (tracks : tracked.Tracks name key) : tracked.declarer? name key = some name := by
  rcases tracks with ⟨surface, known, member⟩
  rw [← lookup_entries_eq_get?] at known
  rw [declarer?, search_cons_of_known [] known, if_pos (OrderedSet.contains_iff_mem.2 member)]

end ApiCoverage.TrackedSurfaces
