import ApiCoverage.Proofs.Ordered.Map
import ApiCoverage.Proofs.Ordered.Set
import ApiCoverage.Report

/-!
# What a report holds after a change

Recording changes the call sites of one key and nothing else. In particular no change to a report
takes a key away, and only seeding adds one. A report is determined by its surfaces and by the call
sites of its methods.
-/

namespace ApiCoverage.CoverageReport

variable {report : CoverageReport} {surface other : String} {key otherKey : MethodKey}
  {site : CallSite}

theorem calls?_eq_bind (report : CoverageReport) (surface : String) (key : MethodKey) :
    report.calls? surface key =
      (report.surfaces.get? surface).bind fun calls => calls.get? key :=
  rfl

@[simp]
theorem calls?_empty : empty.calls? surface key = none :=
  rfl

@[simp]
theorem calls?_record_self :
    (report.record surface key site).calls? surface key =
      (report.calls? surface key).map (·.insert site) := by
  simp only [calls?_eq_bind, record, OrderedMap.get?_modify_self]
  cases report.surfaces.get? surface with
  | none => rfl
  | some calls => exact OrderedMap.get?_modify_self

/-- A call site of one key does not count for another. -/
theorem calls?_record_of_ne (differs : other = surface → otherKey ≠ key) :
    (report.record surface key site).calls? other otherKey = report.calls? other otherKey := by
  simp only [calls?_eq_bind, record]
  by_cases same : other = surface
  · subst same
    rw [OrderedMap.get?_modify_self]
    cases report.surfaces.get? other with
    | none => rfl
    | some calls => exact OrderedMap.get?_modify_of_ne (differs rfl)
  · rw [OrderedMap.get?_modify_of_ne same]

/-- Recording keeps the methods of a report. -/
@[simp]
theorem isSome_calls?_record :
    ((report.record surface key site).calls? other otherKey).isSome =
      (report.calls? other otherKey).isSome := by
  by_cases same : other = surface ∧ otherKey = key
  · rcases same with ⟨rfl, rfl⟩
    simp
  · rw [calls?_record_of_ne]
    rintro rfl rfl
    exact same ⟨rfl, rfl⟩

/-- Recording keeps the surfaces of a report. -/
@[simp]
theorem contains_record :
    (report.record surface key site).surfaces.contains other = report.surfaces.contains other := by
  simp only [OrderedMap.contains_eq, record]
  by_cases same : other = surface
  · subst same
    simp
  · rw [OrderedMap.get?_modify_of_ne same]

/-- Seeding a surface adds it and nothing else. -/
@[simp]
theorem contains_seedSurface :
    (report.seedSurface surface).surfaces.contains other = true ↔
      other = surface ∨ report.surfaces.contains other = true := by
  simp only [OrderedMap.contains_eq, seedSurface]
  by_cases same : other = surface
  · subst same
    simp
  · simp [OrderedMap.get?_insertIfNew_of_ne same, same]

/-- Seeding a surface adds no method. -/
@[simp]
theorem calls?_seedSurface :
    (report.seedSurface surface).calls? other otherKey = report.calls? other otherKey := by
  simp only [calls?_eq_bind, seedSurface]
  by_cases same : other = surface
  · subst same
    rw [OrderedMap.get?_insertIfNew_self]
    cases report.surfaces.get? other with
    | none => rfl
    | some calls => rfl
  · rw [OrderedMap.get?_insertIfNew_of_ne same]

/-- Seeding a method adds its surface and nothing else. -/
@[simp]
theorem contains_seed :
    (report.seed surface key).surfaces.contains other = true ↔
      other = surface ∨ report.surfaces.contains other = true := by
  rw [← contains_seedSurface]
  simp only [OrderedMap.contains_eq, seed]
  by_cases same : other = surface
  · subst same
    simp
  · rw [OrderedMap.get?_modify_of_ne same]

/-- A seeded method has the call sites that it had, or none. -/
theorem calls?_seed_self :
    (report.seed surface key).calls? surface key =
      some ((report.calls? surface key).getD .empty) := by
  simp only [calls?_eq_bind, seed, seedSurface, OrderedMap.get?_modify_self,
    OrderedMap.get?_insertIfNew_self]
  cases report.surfaces.get? surface with
  | none => exact OrderedMap.get?_insertIfNew_self
  | some calls => exact OrderedMap.get?_insertIfNew_self

/-- Seeding one method leaves the others. -/
theorem calls?_seed_of_ne (differs : other = surface → otherKey ≠ key) :
    (report.seed surface key).calls? other otherKey = report.calls? other otherKey := by
  have seeded : (report.seedSurface surface).calls? other otherKey =
      report.calls? other otherKey := calls?_seedSurface
  rw [← seeded]
  simp only [calls?_eq_bind, seed]
  by_cases same : other = surface
  · subst same
    rw [OrderedMap.get?_modify_self]
    cases (report.seedSurface other).surfaces.get? other with
    | none => rfl
    | some calls => exact OrderedMap.get?_insertIfNew_of_ne (differs rfl)
  · rw [OrderedMap.get?_modify_of_ne same]

/-- Seeding adds one method and nothing else. -/
@[simp]
theorem isSome_calls?_seed :
    ((report.seed surface key).calls? other otherKey).isSome = true ↔
      (other = surface ∧ otherKey = key) ∨ (report.calls? other otherKey).isSome = true := by
  by_cases same : other = surface ∧ otherKey = key
  · rcases same with ⟨rfl, rfl⟩
    simp [calls?_seed_self]
  · rw [calls?_seed_of_ne]
    · simp [same]
    · rintro rfl rfl
      exact same ⟨rfl, rfl⟩

/-- Reports with the same surfaces and with the same call sites of every method are equal. -/
theorem ext_calls? {first second : CoverageReport}
    (sameSurfaces : ∀ name, first.surfaces.contains name = second.surfaces.contains name)
    (sameCalls : ∀ name key, first.calls? name key = second.calls? name key) : first = second := by
  have surfaces : first.surfaces = second.surfaces := by
    apply OrderedMap.ext_get?
    intro name
    have there := sameSurfaces name
    have calls := sameCalls name
    simp only [calls?_eq_bind] at calls
    rw [OrderedMap.contains_eq, OrderedMap.contains_eq] at there
    cases left : first.surfaces.get? name with
    | none =>
        rw [left] at there
        exact (Option.isNone_iff_eq_none.1 (by simpa using there.symm)).symm
    | some firstCalls =>
        rw [left, Option.isSome_some] at there
        rcases Option.isSome_iff_exists.1 there.symm with ⟨secondCalls, right⟩
        simp only [left, right, Option.bind_some] at calls
        rw [right, OrderedMap.ext_get? calls]
  cases first
  cases second
  cases surfaces
  rfl

end ApiCoverage.CoverageReport
