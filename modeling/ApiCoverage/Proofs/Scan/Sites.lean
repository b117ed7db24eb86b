import ApiCoverage.Proofs.Scan.Usage

/-!
# What the scan of a class file adds to a report

Recording a list of usages adds, at every key, the places of the usages of that key. Together with
the declarative reading of usages, this says what the scan of a class file means: for a surface that
is no annotation type, the call sites after the scan are those before and the calls in the class
file, whatever the report already held.
-/

namespace ApiCoverage

open ClassFile (ClassUnit)

namespace CoverageReport

variable {report : CoverageReport} {tracked : TrackedSurfaces}

theorem recordAll_cons (report : CoverageReport) (usage : Usage) (rest : List Usage) :
    report.recordAll (usage :: rest) =
      (report.record usage.target.surface usage.target.key usage.site).recordAll rest :=
  rfl

/-- Recording a usage keeps the methods of a report, and adds its place to the call sites of its own
method alone. -/
theorem exists_calls?_record {target : TrackedMethod} {sites : OrderedSet CallSite}
    (held : report.calls? target.surface target.key = some sites) (usage : Usage) :
    ∃ after, (report.record usage.target.surface usage.target.key usage.site).calls?
        target.surface target.key = some after ∧
      ∀ site, site ∈ after.elements ↔ site ∈ sites.elements ∨ ⟨target, site⟩ = usage := by
  rcases usage with ⟨used, place⟩
  by_cases same : target = used
  · subst same
    have recorded : (report.record target.surface target.key place).calls? target.surface
        target.key = some (sites.insert place) := by
      rw [calls?_record_self, held]
      rfl
    refine ⟨sites.insert place, recorded, ?_⟩
    intro site
    rw [OrderedSet.mem_insert, Usage.mk.injEq, or_comm]
    simp
  · have kept : (report.record used.surface used.key place).calls? target.surface target.key =
        some sites := by
      rw [calls?_record_of_ne, held]
      intro surface key
      apply same
      cases target
      cases used
      simp_all
    refine ⟨sites, kept, ?_⟩
    intro site
    rw [Usage.mk.injEq]
    simp [same]

/-- Recording usages keeps the methods of a report, and adds to the call sites of each exactly the
places of its usages. -/
theorem exists_calls?_recordAll {target : TrackedMethod} {sites : OrderedSet CallSite}
    (held : report.calls? target.surface target.key = some sites) (usages : List Usage) :
    ∃ after, (report.recordAll usages).calls? target.surface target.key = some after ∧
      ∀ site, site ∈ after.elements ↔ site ∈ sites.elements ∨ ⟨target, site⟩ ∈ usages := by
  induction usages generalizing report sites with
  | nil => exact ⟨sites, held, by simp⟩
  | cons usage rest ih =>
      rcases exists_calls?_record held usage with ⟨middle, recorded, first⟩
      rcases ih recorded with ⟨after, found, later⟩
      exact ⟨after, found, fun site => by rw [later, first, List.mem_cons, or_assoc]⟩

/-- Recording usages keeps a report with its surfaces. -/
theorem SeededFrom.recordAll (seeded : report.SeededFrom tracked) (usages : List Usage) :
    (report.recordAll usages).SeededFrom tracked := by
  induction usages generalizing report with
  | nil => exact seeded
  | cons usage rest ih => exact ih (seeded.record _ _ _)

/-- Scanning a class file keeps a report with its surfaces. -/
theorem SeededFrom.scanUnit (seeded : report.SeededFrom tracked) (unit : ClassUnit) :
    (report.scanUnit tracked unit).SeededFrom tracked :=
  seeded.recordAll _

/-- The scan of a class file adds to the call sites of a method its usages in the file. -/
theorem exists_calls?_scanUnit (target : TrackedMethod) {sites : OrderedSet CallSite}
    (held : report.calls? target.surface target.key = some sites) (unit : ClassUnit) :
    ∃ after, (report.scanUnit tracked unit).calls? target.surface target.key = some after ∧
      ∀ site, site ∈ after.elements ↔ site ∈ sites.elements ∨
        Calls tracked unit target site ∨ Annotates tracked unit target site := by
  rcases exists_calls?_recordAll held (UnitScan.ofUnit tracked unit).usages with
    ⟨after, found, members⟩
  exact ⟨after, found, fun site => by rw [members, UnitScan.mem_usages_iff]⟩

/-- After the scan of a class file, the call sites of a tracked method of a surface that is no
annotation type are those that the report held and the calls of the method in the class file. -/
theorem mem_sites_scanUnit_iff (seeded : report.SeededFrom tracked) (unit : ClassUnit)
    {name : String} {surface : TrackedSurface} {key : MethodKey}
    (known : tracked.get? name = some surface) (kind : surface.isAnnotationType = false)
    (tracks : key ∈ surface.methods.elements) :
    ∃ before after, report.calls? name key = some before ∧
      (report.scanUnit tracked unit).calls? name key = some after ∧
      ∀ site, site ∈ after.elements ↔
        site ∈ before.elements ∨ Calls tracked unit ⟨name, key⟩ site := by
  rcases seeded.exists_calls? ⟨surface, known, tracks⟩ with ⟨before, held⟩
  rcases exists_calls?_scanUnit ⟨name, key⟩ held unit with ⟨after, found, members⟩
  have unannotated : ∀ site, ¬ Annotates tracked unit ⟨name, key⟩ site := by
    intro site annotates
    rcases annotates.exists_annotationType with ⟨other, found, isAnnotation⟩
    rw [known] at found
    cases found
    rw [kind] at isAnnotation
    cases isAnnotation
  exact ⟨before, after, held, found, fun site => by simp [members, unannotated site]⟩

/-- An interface with one tracked method. -/
def sampleSurface : TrackedSurface :=
  ⟨.interfaceType, [], OrderedSet.empty.insert ⟨"put", "(I)V"⟩, true⟩

/-- The interface and a class that inherits it. -/
def sampleSurfaces : TrackedSurfaces :=
  (TrackedSurfaces.empty.insert "a.Api" sampleSurface).insert "a.Sub"
    ⟨.classType, ["a.Api"], .empty, false⟩

/-- A class that calls the method through the inheriting class in its third line, before code that
cannot be decoded. -/
def sampleUnit : ClassUnit where
  minorVersion := 0
  majorVersion := 61
  access := .ofPublic
  name := "b.Client"
  superName := none
  interfaces := []
  sourceFile := none
  annotations := []
  symbols := #[.other, .method ⟨"a.Sub", "put", "(I)V"⟩, .method ⟨"a.Api", "put", "(I)V"⟩]
  methods := [{
    name := "run", descriptor := "()V", access := .ofPublic
    body := some ⟨[0x00, 0xB6, 0, 1, 0xAC, 0xFD], some #[⟨0, 2⟩, ⟨1, 3⟩]⟩ }]

/-- A report that has a call site already. -/
def sampleReport : CoverageReport :=
  sampleSurfaces.seedReport.record "a.Api" ⟨"put", "(I)V"⟩ ⟨"c.Other", "go()", none⟩

theorem mem_sites_scanUnit_sample :
    sampleReport.SeededFrom sampleSurfaces ∧
      sampleSurfaces.get? "a.Api" = some sampleSurface ∧
      sampleSurface.isAnnotationType = false ∧ ⟨"put", "(I)V"⟩ ∈ sampleSurface.methods.elements ∧
      ∃ before after, sampleReport.calls? "a.Api" ⟨"put", "(I)V"⟩ = some before ∧
        (sampleReport.scanUnit sampleSurfaces sampleUnit).calls? "a.Api" ⟨"put", "(I)V"⟩ =
          some after ∧
        ∀ site, site ∈ after.elements ↔ site ∈ before.elements ∨
          Calls sampleSurfaces sampleUnit ⟨"a.Api", ⟨"put", "(I)V"⟩⟩ site := by
  have seeded : sampleReport.SeededFrom sampleSurfaces :=
    (seededFrom_seedReport sampleSurfaces).record _ _ _
  have known : sampleSurfaces.get? "a.Api" = some sampleSurface := rfl
  have tracks : ⟨"put", "(I)V"⟩ ∈ sampleSurface.methods.elements := by decide
  exact ⟨seeded, known, rfl, tracks, mem_sites_scanUnit_iff seeded sampleUnit known rfl tracks⟩

end CoverageReport

end ApiCoverage
