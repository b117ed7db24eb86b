import ApiCoverage.Proofs.Report.Recording
import ApiCoverage.Surface.Tracked

/-!
# Tracked methods and the keys of a report

A report belongs to a choice of tracked surfaces when its keys are the tracked methods, no more and
no less, and its surfaces are the tracked surfaces, also those without a tracked method. What the
report holds at its keys does not matter, so a report stays with its surfaces however much is
recorded in it.
-/

namespace ApiCoverage

namespace TrackedSurfaces

/-- A surface is there and tracks a method. -/
def Tracks (tracked : TrackedSurfaces) (name : String) (key : MethodKey) : Prop :=
  ∃ surface, tracked.get? name = some surface ∧ key ∈ surface.methods.elements

theorem get?_eq_some_iff {tracked : TrackedSurfaces} {name : String} {surface : TrackedSurface} :
    tracked.get? name = some surface ↔ (name, surface) ∈ tracked.surfaces.entries :=
  OrderedMap.get?_eq_some_iff

/-- A search ends at a surface that it had not entered and that tracks the method. -/
theorem exists_mem_of_search {key : MethodKey} {fresh : List (String × TrackedSurface)}
    {names : List String} {name : String} (result : search key fresh names = some name) :
    ∃ surface, (name, surface) ∈ fresh ∧ key ∈ surface.methods.elements := by
  fun_induction search key fresh names with
  | case1 fresh => cases result
  | case2 fresh first others unknown ih => exact ih result
  | case3 fresh first others surface known tracks =>
      cases result
      rcases List.lookup_eq_some_iff.1 known with ⟨before, after, rfl, _⟩
      exact ⟨surface, by simp, OrderedSet.contains_iff_mem.1 tracks⟩
  | case4 fresh first others surface known skips ih =>
      rcases ih result with ⟨declarer, member, tracks⟩
      exact ⟨declarer, (List.mem_filter.1 member).1, tracks⟩

/-- Only a tracked method is ever found for a call. -/
theorem tracks_of_declarer? {tracked : TrackedSurfaces} {owner name : String} {key : MethodKey}
    (found : tracked.declarer? owner key = some name) : tracked.Tracks name key := by
  rcases exists_mem_of_search found with ⟨surface, member, tracks⟩
  exact ⟨surface, get?_eq_some_iff.2 member, tracks⟩

/-- The report with one more surface and its methods. -/
def seedEntry (report : CoverageReport) (entry : String × TrackedSurface) : CoverageReport :=
  entry.2.methods.elements.foldl (fun report key => report.seed entry.1 key)
    (report.seedSurface entry.1)

theorem seedReport_eq (tracked : TrackedSurfaces) :
    tracked.seedReport = tracked.surfaces.entries.foldl seedEntry .empty :=
  rfl

end TrackedSurfaces

namespace CoverageReport

open TrackedSurfaces (seedEntry)

/-- The keys of a report are exactly the tracked methods, and its surfaces the tracked surfaces. -/
structure SeededFrom (report : CoverageReport) (tracked : TrackedSurfaces) : Prop where
  surfaces : ∀ name, report.surfaces.contains name = true ↔ (tracked.get? name).isSome = true
  methods : ∀ name key, (report.calls? name key).isSome = true ↔ tracked.Tracks name key

section Keys

variable {report : CoverageReport} {tracked : TrackedSurfaces} {name : String} {key : MethodKey}

/-- A tracked method has its call sites in every report of its surfaces. -/
theorem SeededFrom.exists_calls? (seeded : report.SeededFrom tracked)
    (tracks : tracked.Tracks name key) : ∃ sites, report.calls? name key = some sites :=
  Option.isSome_iff_exists.1 ((seeded.methods name key).2 tracks)

/-- What has call sites in a report is tracked. -/
theorem SeededFrom.tracks (seeded : report.SeededFrom tracked) {sites : OrderedSet CallSite}
    (found : report.calls? name key = some sites) : tracked.Tracks name key :=
  (seeded.methods name key).1 (Option.isSome_iff_exists.2 ⟨sites, found⟩)

/-- What is not tracked has no call sites in a report. -/
theorem SeededFrom.calls?_eq_none (seeded : report.SeededFrom tracked)
    (untracked : ¬ tracked.Tracks name key) : report.calls? name key = none :=
  Option.not_isSome_iff_eq_none.1 (mt (seeded.methods name key).1 untracked)

end Keys

theorem contains_seedAll {report : CoverageReport} {surface name : String}
    {keys : List MethodKey} (known : report.surfaces.contains surface = true) :
    (keys.foldl (fun report key => report.seed surface key) report).surfaces.contains name =
        true ↔
      report.surfaces.contains name = true := by
  induction keys generalizing report with
  | nil => rfl
  | cons key rest ih =>
      rw [List.foldl_cons, ih (contains_seed.2 (.inr known)), contains_seed]
      constructor
      · rintro (rfl | there)
        · exact known
        · exact there
      · exact .inr

theorem isSome_calls?_seedAll {report : CoverageReport} {surface name : String}
    {keys : List MethodKey} {key : MethodKey} :
    ((keys.foldl (fun report key => report.seed surface key) report).calls? name key).isSome =
        true ↔
      (name = surface ∧ key ∈ keys) ∨ (report.calls? name key).isSome = true := by
  induction keys generalizing report with
  | nil => simp
  | cons first rest ih =>
      rw [List.foldl_cons, ih, isSome_calls?_seed, List.mem_cons]
      constructor
      · rintro (⟨rfl, later⟩ | ⟨rfl, rfl⟩ | there)
        · exact .inl ⟨rfl, .inr later⟩
        · exact .inl ⟨rfl, .inl rfl⟩
        · exact .inr there
      · rintro (⟨rfl, rfl | later⟩ | there)
        · exact .inr (.inl ⟨rfl, rfl⟩)
        · exact .inl ⟨rfl, later⟩
        · exact .inr (.inr there)

theorem contains_seedEntries {report : CoverageReport} {name : String}
    {entries : List (String × TrackedSurface)} :
    (entries.foldl seedEntry report).surfaces.contains name = true ↔
      (∃ surface, (name, surface) ∈ entries) ∨ report.surfaces.contains name = true := by
  induction entries generalizing report with
  | nil => simp
  | cons entry rest ih =>
      rcases entry with ⟨first, surface⟩
      rw [List.foldl_cons, ih, seedEntry, contains_seedAll (contains_seedSurface.2 (.inl rfl)),
        contains_seedSurface]
      simp only [List.mem_cons, Prod.mk.injEq, exists_or, exists_and_left, exists_eq, and_true]
      constructor
      · rintro (later | same | there)
        · exact .inl (.inr later)
        · exact .inl (.inl same)
        · exact .inr there
      · rintro ((same | later) | there)
        · exact .inr (.inl same)
        · exact .inl later
        · exact .inr (.inr there)

theorem isSome_calls?_seedEntries {report : CoverageReport} {name : String} {key : MethodKey}
    {entries : List (String × TrackedSurface)} :
    ((entries.foldl seedEntry report).calls? name key).isSome = true ↔
      (∃ surface, (name, surface) ∈ entries ∧ key ∈ surface.methods.elements) ∨
        (report.calls? name key).isSome = true := by
  induction entries generalizing report with
  | nil => simp
  | cons entry rest ih =>
      rcases entry with ⟨first, surface⟩
      rw [List.foldl_cons, ih, seedEntry, isSome_calls?_seedAll, calls?_seedSurface]
      simp only [List.mem_cons, Prod.mk.injEq]
      constructor
      · rintro (⟨found, later, tracks⟩ | ⟨rfl, tracks⟩ | there)
        · exact .inl ⟨found, .inr later, tracks⟩
        · exact .inl ⟨surface, .inl ⟨rfl, rfl⟩, tracks⟩
        · exact .inr there
      · rintro (⟨found, ⟨rfl, rfl⟩ | later, tracks⟩ | there)
        · exact .inr (.inl ⟨rfl, tracks⟩)
        · exact .inl ⟨found, later, tracks⟩
        · exact .inr (.inr there)

/-- The report that a scan starts with has the tracked methods as its keys. -/
theorem seededFrom_seedReport (tracked : TrackedSurfaces) :
    tracked.seedReport.SeededFrom tracked := by
  constructor
  · intro name
    rw [TrackedSurfaces.seedReport_eq, contains_seedEntries, Option.isSome_iff_exists]
    simp [TrackedSurfaces.get?_eq_some_iff, OrderedMap.contains_eq, empty]
  · intro name key
    rw [TrackedSurfaces.seedReport_eq, isSome_calls?_seedEntries]
    simp [TrackedSurfaces.Tracks, TrackedSurfaces.get?_eq_some_iff]

/-- No method of a report has a call site. -/
def Vacant (report : CoverageReport) : Prop :=
  ∀ name key sites, report.calls? name key = some sites → sites = .empty

theorem Vacant.seed {report : CoverageReport} (vacant : report.Vacant) (surface : String)
    (key : MethodKey) : (report.seed surface key).Vacant := by
  intro name other sites held
  by_cases same : name = surface ∧ other = key
  · rcases same with ⟨rfl, rfl⟩
    rw [calls?_seed_self] at held
    cases old : report.calls? name other with
    | none =>
        rw [old] at held
        exact (Option.some.inj held).symm
    | some before =>
        rw [old] at held
        cases held
        exact vacant name other before old
  · rw [calls?_seed_of_ne] at held
    · exact vacant name other sites held
    · rintro rfl rfl
      exact same ⟨rfl, rfl⟩

theorem Vacant.seedEntry {report : CoverageReport} (vacant : report.Vacant)
    (entry : String × TrackedSurface) : (seedEntry report entry).Vacant := by
  have start : (report.seedSurface entry.1).Vacant := by
    intro name key sites held
    rw [calls?_seedSurface] at held
    exact vacant name key sites held
  rw [TrackedSurfaces.seedEntry]
  generalize report.seedSurface entry.1 = seeded at start
  induction entry.2.methods.elements generalizing seeded with
  | nil => exact start
  | cons key rest ih => exact ih _ (start.seed entry.1 key)

theorem vacant_seedReport (tracked : TrackedSurfaces) : tracked.seedReport.Vacant := by
  have start : empty.Vacant := by
    intro name key sites held
    cases held
  rw [TrackedSurfaces.seedReport_eq]
  generalize empty = seeded at start
  induction tracked.surfaces.entries generalizing seeded with
  | nil => exact start
  | cons entry rest ih => exact ih _ (start.seedEntry entry)

/-- A tracked method has no call sites at the start of a scan. -/
theorem calls?_seedReport {tracked : TrackedSurfaces} {name : String} {key : MethodKey}
    (tracks : tracked.Tracks name key) : tracked.seedReport.calls? name key = some .empty := by
  rcases (seededFrom_seedReport tracked).exists_calls? tracks with ⟨sites, held⟩
  rw [held, vacant_seedReport tracked name key sites held]

/-- Recording a call site keeps a report with its surfaces. -/
theorem SeededFrom.record {report : CoverageReport} {tracked : TrackedSurfaces}
    (seeded : report.SeededFrom tracked) (surface : String) (key : MethodKey) (site : CallSite) :
    (report.record surface key site).SeededFrom tracked := by
  constructor
  · intro name
    rw [contains_record]
    exact seeded.surfaces name
  · intro name other
    rw [isSome_calls?_record]
    exact seeded.methods name other

end CoverageReport

end ApiCoverage
