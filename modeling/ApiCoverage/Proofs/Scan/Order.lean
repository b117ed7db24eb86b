import ApiCoverage.Proofs.Report.Order
import ApiCoverage.Proofs.Report.Outline
import ApiCoverage.Proofs.Scan.Run

/-!
# Class files in any order

What the scan of a class file adds to a report depends on the class file and on the tracked surfaces
alone, and adding it is a union. So the report after a scan depends on which class files were
scanned, not on their order and not on how often each of them was scanned. Because a report holds
everything in order, what is printed is the same to the last character.
-/

namespace ApiCoverage.CoverageReport

open ClassFile (ClassUnit)

variable {report : CoverageReport} {tracked : TrackedSurfaces}

/-! ## Recording usages in any order -/

/-- Recording usages keeps the surfaces of a report. -/
theorem contains_recordAll (usages : List Usage) (name : String) :
    (report.recordAll usages).surfaces.contains name = report.surfaces.contains name := by
  induction usages generalizing report with
  | nil => rfl
  | cons usage rest ih => rw [recordAll_cons, ih, contains_record]

/-- Recording usages keeps the methods of a report. -/
theorem isSome_calls?_recordAll (usages : List Usage) (name : String) (key : MethodKey) :
    ((report.recordAll usages).calls? name key).isSome = (report.calls? name key).isSome := by
  induction usages generalizing report with
  | nil => rfl
  | cons usage rest ih => rw [recordAll_cons, ih, isSome_calls?_record]

/-- The same usages give a method the same call sites. -/
theorem calls?_recordAll_eq_of_mem_iff {first second : List Usage}
    (same : ∀ usage, usage ∈ first ↔ usage ∈ second) (target : TrackedMethod) :
    (report.recordAll first).calls? target.surface target.key =
      (report.recordAll second).calls? target.surface target.key := by
  cases held : report.calls? target.surface target.key with
  | none =>
      have absent (usages : List Usage) :
          (report.recordAll usages).calls? target.surface target.key = none := by
        rw [← Option.not_isSome_iff_eq_none, isSome_calls?_recordAll, held]
        simp
      rw [absent, absent]
  | some sites =>
      rcases exists_calls?_recordAll held first with ⟨left, leftFound, leftMembers⟩
      rcases exists_calls?_recordAll held second with ⟨right, rightFound, rightMembers⟩
      have equal : left = right := by
        apply OrderedSet.ext_mem
        intro site
        rw [leftMembers, rightMembers, same]
      rw [leftFound, rightFound, equal]

/-- What a report holds depends on which usages were recorded, not on their order and number. -/
theorem recordAll_eq_of_mem_iff {first second : List Usage}
    (same : ∀ usage, usage ∈ first ↔ usage ∈ second) :
    report.recordAll first = report.recordAll second := by
  apply ext_calls?
  · intro name
    rw [contains_recordAll, contains_recordAll]
  · intro name key
    exact calls?_recordAll_eq_of_mem_iff same ⟨name, key⟩

/-! ## Scanning class files in any order -/

/-- The report depends on which class files were scanned, not on their order and number. -/
theorem scanAll_eq_of_mem_iff {first second : List ClassUnit}
    (same : ∀ unit, unit ∈ first ↔ unit ∈ second) :
    report.scanAll tracked first = report.scanAll tracked second := by
  rw [scanAll_eq_recordAll, scanAll_eq_recordAll]
  apply recordAll_eq_of_mem_iff
  intro usage
  simp only [List.mem_flatMap, same]

/-- Scanning the same class files in another order, or some of them more than once, gives the same
report and prints the same text in every form. What is printed follows the order of the report,
where surfaces, methods and call sites increase strictly. -/
theorem scanAll_order_irrelevant (tracked : TrackedSurfaces) (report : CoverageReport)
    {first second : List ClassUnit} (same : ∀ unit, unit ∈ first ↔ unit ∈ second) :
    report.scanAll tracked first = report.scanAll tracked second ∧
      (∀ format settings,
        ReportFormat.print format settings (report.scanAll tracked first) =
          ReportFormat.print format settings (report.scanAll tracked second) ∧
        ReportFormat.print format settings (report.scanAll tracked second) =
          (format.outline settings).write (report.scanAll tracked second)) ∧
      (report.scanAll tracked second).InOrder := by
  have equal : report.scanAll tracked first = report.scanAll tracked second :=
    scanAll_eq_of_mem_iff same
  refine ⟨equal, ?_, inOrder _⟩
  intro format settings
  rw [equal]
  exact ⟨rfl, format.print_eq_write settings _⟩

/-- Another class that carries the annotation. -/
def otherMarkedUnit : ClassUnit :=
  { markedUnit with name := "b.Again" }

theorem scanAll_order_irrelevant_sample :
    (∀ unit, unit ∈ [markedUnit, otherMarkedUnit] ↔
        unit ∈ [otherMarkedUnit, markedUnit, otherMarkedUnit]) ∧
      let once := sampleChoice.seedReport.scanAll sampleChoice [markedUnit, otherMarkedUnit]
      let again :=
        sampleChoice.seedReport.scanAll sampleChoice [otherMarkedUnit, markedUnit, otherMarkedUnit]
      once = again ∧
        (∀ format settings,
          ReportFormat.print format settings once = ReportFormat.print format settings again ∧
          ReportFormat.print format settings again = (format.outline settings).write again) ∧
        again.InOrder ∧
        (again.calls? "a.Marker" .usage).map OrderedSet.elements =
          some [⟨"b.Again", "<class>", none⟩, ⟨"b.Marked", "<class>", none⟩] := by
  have same : ∀ unit, unit ∈ [markedUnit, otherMarkedUnit] ↔
      unit ∈ [otherMarkedUnit, markedUnit, otherMarkedUnit] := by
    intro unit
    simp only [List.mem_cons, List.not_mem_nil, or_false]
    tauto
  rcases scanAll_order_irrelevant sampleChoice sampleChoice.seedReport same with
    ⟨equal, prints, ordered⟩
  exact ⟨same, equal, prints, ordered, by decide +kernel⟩

end ApiCoverage.CoverageReport
