import ApiCoverage.Proofs.Surface.Ascent
import ApiCoverage.Scan.SymbolIndex

/-!
# One method less

Two choices of surfaces may agree in everything but one method, which the second does not track. A
search can tell them apart only if it looks for this method and ends at its surface. Every other
search enters the same surfaces in both and ends alike, because it never gets past the surface
whose method is missing.
-/

namespace ApiCoverage

/-- A surface of a given name, and the same surface with a method left out if it is one of its
own. -/
structure TrackedSurface.Reduces (method : TrackedMethod) (name : String)
    (full reduced : TrackedSurface) : Prop where
  kind : reduced.kind = full.kind
  supers : reduced.supers = full.supers
  hasMembers : reduced.hasMembers = full.hasMembers
  methods : ∀ key, key ∈ reduced.methods.elements ↔
    key ∈ full.methods.elements ∧ (⟨name, key⟩ : TrackedMethod) ≠ method

namespace TrackedSurfaces

/-- The same names in two lists of surfaces, and the same surfaces but for one method. -/
structure ReducesTo (method : TrackedMethod) (full reduced : List (String × TrackedSurface)) :
    Prop where
  unknown : ∀ name, full.lookup name = none → reduced.lookup name = none
  known : ∀ name surface, full.lookup name = some surface →
    ∃ less, reduced.lookup name = some less ∧ surface.Reduces method name less

/-- Entering the same surface keeps the two lists of unentered surfaces alike. -/
theorem ReducesTo.without {method : TrackedMethod} {full reduced : List (String × TrackedSurface)}
    (reduces : ReducesTo method full reduced) (name : String) :
    ReducesTo method (without name full) (without name reduced) := by
  constructor
  · intro other
    rw [lookup_without, lookup_without]
    split
    · intro _
      rfl
    · exact reduces.unknown other
  · intro other surface
    rw [lookup_without, lookup_without]
    split
    · nofun
    · exact reduces.known other surface

/-- A search that does not end at the method that is left out ends alike without it. -/
theorem search_eq_of_reducesTo {method : TrackedMethod} {key : MethodKey}
    {full reduced : List (String × TrackedSurface)} {names : List String}
    (reduces : ReducesTo method full reduced)
    (elsewhere : ∀ top, search key full names = some top → (⟨top, key⟩ : TrackedMethod) ≠ method) :
    search key reduced names = search key full names := by
  fun_induction search key full names generalizing reduced with
  | case1 full => rw [search]
  | case2 full name others unknown ih =>
      rw [search_cons_of_unknown others (reduces.unknown name unknown)]
      exact ih reduces elsewhere
  | case3 full name others surface known tracks =>
      rcases reduces.known name surface known with ⟨less, found, reduced⟩
      have kept : less.methods.contains key = true := by
        rw [OrderedSet.contains_iff_mem] at tracks ⊢
        exact (reduced.methods key).2 ⟨tracks, elsewhere name rfl⟩
      rw [search_cons_of_known others found, if_pos kept]
  | case4 full name others surface known skips ih =>
      rcases reduces.known name surface known with ⟨less, found, reduced⟩
      have absent : ¬ less.methods.contains key = true := by
        rw [OrderedSet.contains_iff_mem] at skips ⊢
        exact fun kept => skips ((reduced.methods key).1 kept).1
      rw [search_cons_of_known others found, if_neg absent, reduced.supers]
      exact ih (reduces.without name) elsewhere

/-- Two choices of surfaces that differ in nothing but one method, which the second leaves out. -/
abbrev Reduces (method : TrackedMethod) (full reduced : TrackedSurfaces) : Prop :=
  ReducesTo method full.surfaces.entries reduced.surfaces.entries

variable {method : TrackedMethod} {full reduced : TrackedSurfaces}

/-- Choices that answer alike but for one method differ in this method alone. -/
theorem reduces_of_get? (unknown : ∀ name, full.get? name = none → reduced.get? name = none)
    (known : ∀ name surface, full.get? name = some surface →
      ∃ less, reduced.get? name = some less ∧ surface.Reduces method name less) :
    full.Reduces method reduced := by
  constructor
  · intro name
    rw [lookup_entries_eq_get?, lookup_entries_eq_get?]
    exact unknown name
  · intro name surface
    rw [lookup_entries_eq_get?, lookup_entries_eq_get?]
    exact known name surface

theorem Reduces.get?_eq_none (reduces : full.Reduces method reduced) {name : String}
    (unknown : full.get? name = none) : reduced.get? name = none := by
  rw [← lookup_entries_eq_get?] at unknown ⊢
  exact reduces.unknown name unknown

theorem Reduces.exists_reduced (reduces : full.Reduces method reduced) {name : String}
    {surface : TrackedSurface} (known : full.get? name = some surface) :
    ∃ less, reduced.get? name = some less ∧ surface.Reduces method name less := by
  rw [← lookup_entries_eq_get?] at known ⊢
  exact reduces.known name surface known

theorem Reduces.exists_full (reduces : full.Reduces method reduced) {name : String}
    {less : TrackedSurface} (known : reduced.get? name = some less) :
    ∃ surface, full.get? name = some surface ∧ surface.Reduces method name less := by
  cases held : full.get? name with
  | none =>
      rw [reduces.get?_eq_none held] at known
      cases known
  | some surface =>
      rcases reduces.exists_reduced held with ⟨other, found, reduced⟩
      rw [known] at found
      cases found
      exact ⟨surface, rfl, reduced⟩

/-- The same surfaces are there without the method. -/
theorem Reduces.isSome_get? (reduces : full.Reduces method reduced) (name : String) :
    (reduced.get? name).isSome = true ↔ (full.get? name).isSome = true := by
  simp only [Option.isSome_iff_exists]
  constructor
  · rintro ⟨less, known⟩
    rcases reduces.exists_full known with ⟨surface, found, _⟩
    exact ⟨surface, found⟩
  · rintro ⟨surface, known⟩
    rcases reduces.exists_reduced known with ⟨less, found, _⟩
    exact ⟨less, found⟩

/-- The same methods are tracked, but for the one that is left out. -/
theorem Reduces.tracks_iff (reduces : full.Reduces method reduced) {name : String}
    {key : MethodKey} :
    reduced.Tracks name key ↔ full.Tracks name key ∧ (⟨name, key⟩ : TrackedMethod) ≠ method := by
  constructor
  · rintro ⟨less, known, tracks⟩
    rcases reduces.exists_full known with ⟨surface, found, reduced⟩
    rcases (reduced.methods key).1 tracks with ⟨tracked, differs⟩
    exact ⟨⟨surface, found, tracked⟩, differs⟩
  · rintro ⟨⟨surface, known, tracks⟩, differs⟩
    rcases reduces.exists_reduced known with ⟨less, found, reduced⟩
    exact ⟨less, found, (reduced.methods key).2 ⟨tracks, differs⟩⟩

/-- A call leads to the same surface without a method, unless it led to this method. -/
theorem declarer?_eq_of_reduces (reduces : Reduces method full reduced)
    {owner : String} {key : MethodKey}
    (elsewhere : ∀ top, full.declarer? owner key = some top →
      (⟨top, key⟩ : TrackedMethod) ≠ method) :
    reduced.declarer? owner key = full.declarer? owner key :=
  search_eq_of_reducesTo reduces elsewhere

end TrackedSurfaces

end ApiCoverage
