import ApiCoverage.Proofs.Report.CsvText
import ApiCoverage.Proofs.Report.JsonRecord

/-!
# Agreement of the counts

A report counts its methods, its covered methods and its call sites by itself, in its summary, and in
every form in which it is printed. All of these counts go through the methods of the report, so they
are compared with the counts of that one list.
-/

namespace ApiCoverage

/-- Members that are counted at all are at most as many as they count together. -/
theorem countP_le_sumBy {α : Type} {test : α → Bool} {count : α → Nat} {members : List α}
    (counted : ∀ member ∈ members, test member = true → 0 < count member) :
    members.countP test ≤ sumBy count members := by
  induction members with
  | nil => simp
  | cons member rest ih =>
      have later := ih fun other mem => counted other (List.mem_cons_of_mem _ mem)
      rw [List.countP_cons, sumBy_cons]
      split
      · next passes =>
          have here := counted member List.mem_cons_self passes
          omega
      · omega

theorem OrderedSet.isEmpty_eq_false_iff {κ : Type} [Ord κ] {set : OrderedSet κ} :
    set.isEmpty = false ↔ 0 < set.size := by
  rw [isEmpty, List.isEmpty_eq_false_iff, size, List.length_pos_iff]

namespace CoverageReport

variable (report : CoverageReport)

/-! ## The counts of the methods -/

theorem values_eq_map_methods :
    report.surfaces.values.flatMap OrderedMap.values =
      report.methods.map fun (_, _, sites) => sites := by
  simp only [methods, OrderedMap.values, List.map_flatMap, List.flatMap_map, List.map_map]
  rfl

theorem trackedCount_eq_length : report.trackedCount = report.methods.length := by
  simp only [trackedCount, methods, OrderedMap.values, length_flatMap_eq_sumBy, sumBy_map,
    List.length_map]
  rfl

theorem coveredCount_eq_countP :
    report.coveredCount = report.methods.countP fun (_, _, sites) => !sites.isEmpty := by
  rw [coveredCount, values_eq_map_methods, List.countP_map]
  rfl

theorem callSiteCount_eq_sumBy :
    report.callSiteCount = sumBy (fun (_, _, sites) => sites.size) report.methods := by
  rw [callSiteCount, values_eq_map_methods, sumBy_map]

/-! ## The summary -/

theorem sumBy_tracked : sumBy SurfaceStats.tracked report.summary.surfaces = report.trackedCount := by
  simp only [summary, trackedCount, OrderedMap.values, sumBy_map]
  rfl

theorem sumBy_covered : sumBy SurfaceStats.covered report.summary.surfaces = report.coveredCount := by
  simp only [summary, coveredCount, OrderedMap.values, countP_flatMap_eq_sumBy, sumBy_map]
  rfl

theorem sumBy_callSites :
    sumBy SurfaceStats.callSites report.summary.surfaces = report.callSiteCount := by
  simp only [summary, callSiteCount, SurfaceStats.ofCalls, OrderedMap.values, sumBy_flatMap,
    sumBy_map]

/-- A surface has at most as many covered methods as methods, and as call sites. -/
theorem bounded_ofCalls (name : String) (calls : MethodCalls) :
    (SurfaceStats.ofCalls name calls).covered ≤ (SurfaceStats.ofCalls name calls).tracked ∧
      (SurfaceStats.ofCalls name calls).covered ≤ (SurfaceStats.ofCalls name calls).callSites := by
  constructor
  · have most := calls.values.countP_le_length (p := fun sites => !sites.isEmpty)
    simpa [SurfaceStats.ofCalls, OrderedMap.values, OrderedMap.size] using most
  · refine countP_le_sumBy fun sites _ covered => ?_
    simpa [OrderedSet.isEmpty_eq_false_iff] using covered

end CoverageReport

/-! ## Separated values -/

/-- A method as a reader of the separated values sees it. -/
structure CsvRow where
  surface : String
  method : String
  callCount : Nat
  status : String
  deriving DecidableEq, Repr

namespace CsvRow

/-- The row with these fields. -/
def ofFields? : List String → Option CsvRow
  | [surface, method, callCount, status] => do
      let callCount ← Text.natural? callCount
      return ⟨surface, method, callCount, status⟩
  | _ => none

/-- The rows of a text behind its header. -/
def ofText? (text : String) : Option (List CsvRow) := do
  match ← Csv.ofText? text with
  | header :: records => if header = Csv.header then records.mapM ofFields? else none
  | [] => none

/-- A method as it stands in its row. -/
def ofMethod (method : String × MethodKey × OrderedSet CallSite) : CsvRow :=
  let (surface, key, sites) := method
  ⟨surface, key.display, sites.size, Csv.status sites⟩

/-- The rows are those of the methods of the report. -/
theorem ofText?_csv (report : CoverageReport) :
    ofText? report.csv = some (report.methods.map ofMethod) := by
  have rows : report.csvRecords.mapM ofFields? = some (report.methods.map ofMethod) :=
    Outcome.mapM_map_eq_some fun method _ => by
      rcases method with ⟨surface, key, sites⟩
      simp only [Csv.record, ofFields?, Text.natural?_toString]
      rfl
  simp [ofText?, report.ofText?_csv, rows]

/-- A method is marked as covered exactly if it has a call site. -/
theorem status_ofMethod (method : String × MethodKey × OrderedSet CallSite) :
    (ofMethod method).status =
      if 0 < (ofMethod method).callCount then "covered" else "uncovered" := by
  rcases method with ⟨surface, key, sites⟩
  simp only [ofMethod, Csv.status, ← OrderedSet.isEmpty_eq_false_iff]
  cases sites.isEmpty <;> rfl

theorem status_eq_covered (method : String × MethodKey × OrderedSet CallSite) :
    ((ofMethod method).status == "covered") = !method.2.2.isEmpty := by
  rcases method with ⟨surface, key, sites⟩
  simp only [ofMethod, Csv.status]
  cases sites.isEmpty <;> rfl

end CsvRow

/-! ## Headings -/

namespace Html

/-- The heading of a surface with these counts. -/
def heading (stats : SurfaceStats) : String :=
  String.join ["<div class=\"apiClass\">\n<h2>", escape stats.surface, " <span class=\"ratio\">",
    toString stats.covered, "/", toString stats.tracked,
    "</span></h2>\n<ul class=\"blockList\">\n"]

/-- What stands below the heading of a surface. -/
def listing (linkBase : Option String) (calls : MethodCalls) : String :=
  render (calls.entries.flatMap (fun (key, sites) => method linkBase key sites) ++ surfaceClosing)

theorem escapeChar_of_isDigit {char : Char} (digit : char.isDigit = true) :
    escapeChar char = [char] := by
  unfold escapeChar
  split
  case h_5 => rfl
  all_goals simp at digit

/-- Numbers are not escaped. -/
theorem escape_natural (value : Nat) : escape (toString value) = toString value := by
  have plain : (Nat.toDigits 10 value).flatMap escapeChar = Nat.toDigits 10 value := by
    have digits : ∀ char ∈ Nat.toDigits 10 value, escapeChar char = [char] := fun _ member =>
      escapeChar_of_isDigit (Text.isDigit_of_mem_toDigits member)
    rw [List.flatMap_congr digits, List.flatMap_singleton']
  rw [escape, Text.toList_toString, plain, ← Text.toList_toString, String.ofList_toList]

theorem render_surfaceOpening (name : String) (calls : MethodCalls) :
    render (surfaceOpening name calls) = heading (.ofCalls name calls) := by
  rw [heading, ← escape_natural (SurfaceStats.ofCalls name calls).covered,
    ← escape_natural (SurfaceStats.ofCalls name calls).tracked]
  rfl

theorem render_surface_eq (linkBase : Option String) (name : String) (calls : MethodCalls) :
    render (surface linkBase name calls) = heading (.ofCalls name calls) ++ listing linkBase calls := by
  rw [surface, List.append_assoc, render_append, render_surfaceOpening, listing]

end Html

/-- A page gives every surface its heading with the counts of the summary. -/
theorem CoverageReport.html_eq_headings (report : CoverageReport) (title : String)
    (linkBase : Option String) :
    report.html title linkBase = Html.render (Html.opening title) ++
      String.join (List.zipWith (fun stats calls => Html.heading stats ++ Html.listing linkBase calls)
        report.summary.surfaces report.surfaces.values) ++ Html.render Html.closing := by
  simp only [html, htmlPieces, Html.render_append, Html.render_flatMap, Html.render_surface_eq,
    summary, OrderedMap.values, List.zipWith_map, List.zipWith_self]

/-! ## Tables -/

/-- The rows of a table: the surfaces, and all of them together if there are any. -/
def CoverageSummary.tableRows (summary : CoverageSummary) : List SurfaceStats :=
  summary.surfaces ++ if summary.surfaces.isEmpty then [] else [summary.total]

/-- The line of a table for these counts. -/
def SurfaceStats.tableLine (stats : SurfaceStats) : String :=
  "  " ++ Text.alignLeft 40 stats.surface ++ " " ++
    Text.alignRight 5 (Decimal.oneDecimal stats.percent) ++ "%  (" ++ toString stats.covered ++ "/" ++
    toString stats.tracked ++ " methods, " ++ toString stats.callSites ++ " call sites)"

theorem CoverageReport.plainTable_eq (summary : CoverageSummary) :
    plainTable summary = "Coverage:" :: summary.tableRows.map SurfaceStats.tableLine := by
  rw [plainTable, CoverageSummary.tableRows, List.map_append]
  split <;> rfl

/-! ## Agreement -/

namespace CoverageReport

/-- Wherever the methods, the covered methods and the call sites of a report are counted, the counts
are the same. -/
structure CountsAgree (report : CoverageReport) : Prop where
  tracked : sumBy SurfaceStats.tracked report.summary.surfaces = report.trackedCount
  covered : sumBy SurfaceStats.covered report.summary.surfaces = report.coveredCount
  callSites : sumBy SurfaceStats.callSites report.summary.surfaces = report.callSiteCount
  total : report.summary.total =
    ⟨"Total", report.trackedCount, report.coveredCount, report.callSiteCount⟩
  /-- The surfaces are counted in the order in which they stand. -/
  order : report.summary.surfaces.map SurfaceStats.surface = report.surfaces.keys
  bounded : ∀ stats ∈ report.summary.surfaces,
    stats.covered ≤ stats.tracked ∧ stats.covered ≤ stats.callSites
  /-- The separated values are read back as one row per method. -/
  csv : ∃ rows, CsvRow.ofText? report.csv = some rows ∧
    rows.length = report.trackedCount ∧
    rows.countP (fun row => row.status == "covered") = report.coveredCount ∧
    sumBy CsvRow.callCount rows = report.callSiteCount ∧
    ∀ row ∈ rows, row.status = if 0 < row.callCount then "covered" else "uncovered"
  /-- The heading of every surface on a page shows its counts. -/
  html : ∀ title linkBase, report.html title linkBase = Html.render (Html.opening title) ++
    String.join (List.zipWith (fun stats calls => Html.heading stats ++ Html.listing linkBase calls)
      report.summary.surfaces report.surfaces.values) ++ Html.render Html.closing
  /-- The table below the listing shows the counts of every surface and of all of them. -/
  plain : report.plain = Text.unlines
    (report.plainListing ++ "Coverage:" :: report.summary.tableRows.map SurfaceStats.tableLine)
  /-- The JSON document is read back with the counts of every surface and of all of them. -/
  json : ∃ record, ReportRecord.ofText? report.json = some record ∧
    record.summary = .ofStats report.summary.total ∧
    record.surfaces.map (fun surface => (surface.name, surface.summary)) =
      report.summary.surfaces.map fun stats => (stats.surface, .ofStats stats)

/-- Every count of a report agrees with the others. -/
theorem countsAgree (report : CoverageReport) : report.CountsAgree where
  tracked := report.sumBy_tracked
  covered := report.sumBy_covered
  callSites := report.sumBy_callSites
  total := by
    rw [← sumBy_tracked, ← sumBy_covered, ← sumBy_callSites]
    rfl
  order := by
    simp only [summary, OrderedMap.keys, List.map_map]
    rfl
  bounded := by
    simp only [summary, List.forall_mem_map]
    rintro ⟨name, calls⟩ _
    exact bounded_ofCalls name calls
  csv := by
    refine ⟨report.methods.map CsvRow.ofMethod, CsvRow.ofText?_csv report, ?_, ?_, ?_, ?_⟩
    · rw [List.length_map, trackedCount_eq_length]
    · rw [List.countP_map, coveredCount_eq_countP]
      exact List.countP_congr fun method _ => by simp [CsvRow.status_eq_covered]
    · rw [callSiteCount_eq_sumBy, sumBy_map]
      rfl
    · exact List.forall_mem_map.2 fun method _ => CsvRow.status_ofMethod method
  html := report.html_eq_headings
  plain := by rw [plain, plainTable_eq]
  json := ⟨.ofReport report, ReportRecord.ofText?_json report, rfl, ReportRecord.rows_ofReport report⟩

end CoverageReport

end ApiCoverage
