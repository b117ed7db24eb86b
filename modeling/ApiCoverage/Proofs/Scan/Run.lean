import ApiCoverage.Proofs.Scan.Sites
import ApiCoverage.Proofs.Scan.Tracking
import ApiCoverage.Scan

/-!
# Whole runs of a scan

A report that starts with the keys of the tracked surfaces keeps exactly these keys however many
class files are scanned into it, and its call sites only become more. Nothing is lost on the way:
every usage that a scan lists names a key of the report at the moment when it is recorded. Because
recording drops a usage without a key silently, this depends on the usage keys that the choice of
surfaces puts in place.
-/

namespace ApiCoverage

open ClassFile (ClassUnit)

/-- Every method that an annotation counts for is tracked. -/
theorem TrackedSurfaces.CountsUses.tracks_of_annotates {tracked : TrackedSurfaces}
    (counts : tracked.CountsUses) {unit : ClassUnit} {target : TrackedMethod} {site : CallSite}
    (annotates : Annotates tracked unit target site) :
    tracked.Tracks target.surface target.key := by
  rcases annotates.exists_counts with ⟨use, counted⟩
  rcases Usage.mem_annotationTargets_iff.1 counted with ⟨surface, found, kind, same, key⟩
  rw [same]
  cases members : surface.hasMembers with
  | true =>
      rw [members, if_pos rfl] at key
      exact ⟨surface, found, key.1⟩
  | false =>
      rw [members, if_neg Bool.false_ne_true] at key
      rw [key]
      exact ⟨surface, found, counts _ surface found kind members⟩

/-- Every method that code calls is tracked. -/
theorem Calls.tracks {tracked : TrackedSurfaces} {unit : ClassUnit} {target : TrackedMethod}
    {site : CallSite} (calls : Calls tracked unit target site) :
    tracked.Tracks target.surface target.key := by
  rcases calls with ⟨_, _, _, _, _, leads⟩
  exact TrackedSurfaces.tracks_of_declarer? leads

/-- Every usage that a scan lists is one of a tracked method. -/
theorem TrackedSurfaces.CountsUses.tracks_of_mem_usages {tracked : TrackedSurfaces}
    (counts : tracked.CountsUses) {unit : ClassUnit} {usage : Usage}
    (listed : usage ∈ (UnitScan.ofUnit tracked unit).usages) :
    tracked.Tracks usage.target.surface usage.target.key := by
  rcases UnitScan.mem_usages_iff.1 listed with calls | annotates
  · exact calls.tracks
  · exact counts.tracks_of_annotates annotates

namespace CoverageReport

variable {report : CoverageReport} {tracked : TrackedSurfaces}

/-- Every method of a report is one of a later report and keeps its call sites there. -/
def Within (report later : CoverageReport) : Prop :=
  ∀ name key sites, report.calls? name key = some sites →
    ∃ more, later.calls? name key = some more ∧ ∀ site ∈ sites.elements, site ∈ more.elements

theorem Within.refl (report : CoverageReport) : report.Within report :=
  fun _ _ sites held => ⟨sites, held, fun _ member => member⟩

theorem Within.trans {first second third : CoverageReport} (left : first.Within second)
    (right : second.Within third) : first.Within third := by
  intro name key sites held
  rcases left name key sites held with ⟨more, found, kept⟩
  rcases right name key more found with ⟨most, last, keptLater⟩
  exact ⟨most, last, fun site member => keptLater site (kept site member)⟩

/-- The scan of a class file takes no call site away. -/
theorem within_scanUnit (tracked : TrackedSurfaces) (report : CoverageReport) (unit : ClassUnit) :
    report.Within (report.scanUnit tracked unit) := by
  intro name key sites held
  rcases exists_calls?_scanUnit ⟨name, key⟩ held unit with ⟨after, found, members⟩
  exact ⟨after, found, fun site member => (members site).2 (.inl member)⟩

/-- Scans class files one after another. -/
def scanAll (tracked : TrackedSurfaces) (report : CoverageReport) (units : List ClassUnit) :
    CoverageReport :=
  units.foldl (scanUnit tracked) report

theorem scanAll_append (tracked : TrackedSurfaces) (report : CoverageReport)
    (first second : List ClassUnit) :
    report.scanAll tracked (first ++ second) =
      (report.scanAll tracked first).scanAll tracked second :=
  List.foldl_append

/-- Scanning class files one after another records all their usages. -/
theorem scanAll_eq_recordAll (tracked : TrackedSurfaces) (report : CoverageReport)
    (units : List ClassUnit) :
    report.scanAll tracked units =
      report.recordAll (units.flatMap fun unit => (UnitScan.ofUnit tracked unit).usages) := by
  induction units generalizing report with
  | nil => rfl
  | cons unit rest ih =>
      calc
        report.scanAll tracked (unit :: rest) = (report.scanUnit tracked unit).scanAll tracked rest :=
          rfl
        _ = (report.recordAll (UnitScan.ofUnit tracked unit).usages).recordAll
              (rest.flatMap fun unit => (UnitScan.ofUnit tracked unit).usages) := ih _
        _ = _ := by rw [List.flatMap_cons, recordAll, recordAll, recordAll, List.foldl_append]

/-- Scanning class files keeps a report with its surfaces. -/
theorem SeededFrom.scanAll (seeded : report.SeededFrom tracked) (units : List ClassUnit) :
    (report.scanAll tracked units).SeededFrom tracked := by
  induction units generalizing report with
  | nil => exact seeded
  | cons unit rest ih => exact ih (seeded.scanUnit unit)

/-- Scanning class files takes no call site away. -/
theorem within_scanAll (tracked : TrackedSurfaces) (report : CoverageReport)
    (units : List ClassUnit) : report.Within (report.scanAll tracked units) := by
  induction units generalizing report with
  | nil => exact .refl report
  | cons unit rest ih => exact (within_scanUnit tracked report unit).trans (ih _)

/-- After scanning from the start, the call sites of a tracked method are its usages in the class
files. -/
theorem exists_calls?_scanAll_seedReport {target : TrackedMethod}
    (tracks : tracked.Tracks target.surface target.key) (units : List ClassUnit) :
    ∃ sites, (tracked.seedReport.scanAll tracked units).calls? target.surface target.key =
        some sites ∧
      ∀ site, site ∈ sites.elements ↔
        ∃ unit ∈ units, Calls tracked unit target site ∨ Annotates tracked unit target site := by
  rw [scanAll_eq_recordAll]
  rcases exists_calls?_recordAll (calls?_seedReport tracks)
    (units.flatMap fun unit => (UnitScan.ofUnit tracked unit).usages) with ⟨sites, found, members⟩
  refine ⟨sites, found, ?_⟩
  intro site
  simp [members, UnitScan.mem_usages_iff, OrderedSet.empty]

/-- A usage that a scan lists has a key in the report when it is its turn to be recorded. -/
theorem SeededFrom.isSome_calls?_recordAll (seeded : report.SeededFrom tracked)
    (counts : tracked.CountsUses) {unit : ClassUnit} {done rest : List Usage} {usage : Usage}
    (listed : (UnitScan.ofUnit tracked unit).usages = done ++ usage :: rest) :
    ((report.recordAll done).calls? usage.target.surface usage.target.key).isSome = true := by
  apply ((seeded.recordAll done).methods _ _).2
  apply counts.tracks_of_mem_usages
  rw [listed]
  simp

/-- A usage that a scan lists is among the call sites after the scan. -/
theorem SeededFrom.exists_mem_calls?_scanUnit (seeded : report.SeededFrom tracked)
    (counts : tracked.CountsUses) {unit : ClassUnit} {usage : Usage}
    (listed : usage ∈ (UnitScan.ofUnit tracked unit).usages) :
    ∃ sites, (report.scanUnit tracked unit).calls? usage.target.surface usage.target.key =
      some sites ∧ usage.site ∈ sites.elements := by
  rcases seeded.exists_calls? (counts.tracks_of_mem_usages listed) with ⟨before, held⟩
  rcases exists_calls?_recordAll held (UnitScan.ofUnit tracked unit).usages with
    ⟨after, found, members⟩
  exact ⟨after, found, (members usage.site).2 (.inr listed)⟩

/-- Whatever class files have been scanned from the start, the keys of the report are the tracked
methods and its surfaces the tracked surfaces. Whatever is scanned next, every usage has its key when
it is recorded and is there afterwards, and whatever follows, no call site is taken away. -/
theorem seededFrom_scanAll_seedReport {tree : FileTree} {catalog : SurfaceCatalog}
    {policy : ExclusionPolicy} {names : List String} {tracked : TrackedSurfaces}
    (chosen : (TrackedSurfaces.track tree catalog policy names).outcome = .ok tracked)
    (units : List ClassUnit) :
    let report := tracked.seedReport.scanAll tracked units
    report.SeededFrom tracked ∧
      (∀ next done usage rest, (UnitScan.ofUnit tracked next).usages = done ++ usage :: rest →
        ((report.recordAll done).calls? usage.target.surface usage.target.key).isSome = true ∧
        ∃ sites, (report.scanUnit tracked next).calls? usage.target.surface usage.target.key =
          some sites ∧ usage.site ∈ sites.elements) ∧
      ∀ later, report.Within (tracked.seedReport.scanAll tracked (units ++ later)) := by
  intro report
  have counts := TrackedSurfaces.countsUses_of_track chosen
  have seeded : report.SeededFrom tracked := (seededFrom_seedReport tracked).scanAll units
  constructor
  · exact seeded
  constructor
  · intro next done usage rest listed
    constructor
    · exact seeded.isSome_calls?_recordAll counts listed
    · apply seeded.exists_mem_calls?_scanUnit counts
      rw [listed]
      simp
  · intro later
    rw [scanAll_append]
    exact within_scanAll tracked report later

/-- A catalog with two surfaces that declare no methods, one of them an annotation type. -/
def sampleCatalog : SurfaceCatalog :=
  (SurfaceCatalog.empty.insert "a.Base" ⟨.interfaceType, [], []⟩).insert "a.Marker"
    ⟨.annotationType, [], []⟩

/-- The annotation type with the usage key, and the other surface with no key at all. -/
def sampleChoice : TrackedSurfaces :=
  (TrackedSurfaces.empty.insert "a.Marker"
    ⟨.annotationType, [], OrderedSet.empty.insert .usage, false⟩).insert "a.Base"
    ⟨.interfaceType, [], .empty, false⟩

/-- A class without methods that carries the annotation. -/
def markedUnit : ClassUnit where
  minorVersion := 0
  majorVersion := 61
  access := .ofPublic
  name := "b.Marked"
  superName := none
  interfaces := []
  sourceFile := none
  annotations := [⟨"a.Marker", []⟩]
  symbols := #[.other]
  methods := []

theorem seededFrom_scanAll_sample :
    (TrackedSurfaces.track ⟨.emptyFolder, []⟩ sampleCatalog (fun _ _ => none)
        [" a.Marker", "a.Base"]).outcome = .ok sampleChoice ∧
      let report := sampleChoice.seedReport.scanAll sampleChoice [markedUnit]
      report.SeededFrom sampleChoice ∧
        (∀ next done usage rest,
          (UnitScan.ofUnit sampleChoice next).usages = done ++ usage :: rest →
            ((report.recordAll done).calls? usage.target.surface usage.target.key).isSome = true ∧
            ∃ sites,
              (report.scanUnit sampleChoice next).calls? usage.target.surface usage.target.key =
                some sites ∧ usage.site ∈ sites.elements) ∧
        (∀ later, report.Within
          (sampleChoice.seedReport.scanAll sampleChoice ([markedUnit] ++ later))) ∧
        (report.calls? "a.Marker" .usage).map OrderedSet.elements =
          some [⟨"b.Marked", "<class>", none⟩] := by
  have chosen : (TrackedSurfaces.track ⟨.emptyFolder, []⟩ sampleCatalog (fun _ _ => none)
      [" a.Marker", "a.Base"]).outcome = .ok sampleChoice :=
    rfl
  rcases seededFrom_scanAll_seedReport chosen [markedUnit] with ⟨seeded, kept, grows⟩
  exact ⟨chosen, seeded, kept, grows, by decide +kernel⟩

end CoverageReport

namespace Scan

/-- Going through a folder keeps a report with its surfaces. -/
theorem seededFrom_visitAll {tracked : TrackedSurfaces} {report : CoverageReport}
    (seeded : report.SeededFrom tracked) (visits : List Visit) :
    (visitAll tracked report visits).2.SeededFrom tracked := by
  induction visits generalizing report with
  | nil => exact seeded
  | cons visit rest ih => exact ih (seeded.recordAll _)

/-- A scan that succeeds reports on exactly what it chose to track. -/
theorem seededFrom_run {tree : FileTree} {catalog : SurfaceCatalog} {policy : ExclusionPolicy}
    {names : List String} {root : Path} {report : CoverageReport}
    (succeeds : (run tree catalog policy names root).outcome = .ok report) :
    ∃ tracked, (TrackedSurfaces.track tree catalog policy names).outcome = .ok tracked ∧
      report.SeededFrom tracked := by
  rcases Logged.outcome_bind_eq_ok_iff.1 succeeds with ⟨_, _, succeeds⟩
  rcases Logged.outcome_bind_eq_ok_iff.1 succeeds with ⟨tracked, chosen, succeeds⟩
  cases walked : tree.walk root with
  | error fault =>
      rw [walked] at succeeds
      cases succeeds
  | ok visits =>
      rw [walked] at succeeds
      cases succeeds
      exact ⟨tracked, chosen,
        seededFrom_visitAll (CoverageReport.seededFrom_seedReport tracked) visits⟩

end Scan

end ApiCoverage
