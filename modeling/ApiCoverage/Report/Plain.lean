import ApiCoverage.Decimal.Display
import ApiCoverage.Report.Summary
import ApiCoverage.Text.Layout

/-!
# Plain text reports

Every surface with its methods and their call sites, one per line, and then a table of the coverage
per surface and in total.
-/

namespace ApiCoverage

/-- What stands in place of the call sites of a method that has none. -/
def uncoveredMark : String := "UNCOVERED"

namespace CoverageReport

/-- The lines of a method. -/
def plainMethod (key : MethodKey) (sites : OrderedSet CallSite) : List String :=
  let entries := if sites.isEmpty then [uncoveredMark] else sites.elements.map CallSite.display
  s!"\t{key.display}" :: entries.map fun entry => s!"\t\t{entry}"

/-- The lines of a surface. -/
def plainSurface (surface : String) (calls : MethodCalls) : List String :=
  s!"Interface / Class: {surface}" ::
    calls.entries.flatMap (fun (key, sites) => plainMethod key sites) ++ [""]

/-- A line of the coverage table. -/
def plainRow (stats : SurfaceStats) : String :=
  let name := Text.alignLeft 40 stats.surface
  let share := Text.alignRight 5 (Decimal.oneDecimal stats.percent)
  s!"  {name} {share}%  ({stats.covered}/{stats.tracked} methods, {stats.callSites} call sites)"

/-- The coverage table; the line for the total needs at least one surface. -/
def plainTable (summary : CoverageSummary) : List String :=
  let total := if summary.surfaces.isEmpty then [] else [plainRow summary.total]
  "Coverage:" :: summary.surfaces.map plainRow ++ total

/-- The listing of surfaces, methods and call sites. -/
def plainListing (report : CoverageReport) : List String :=
  report.surfaces.entries.flatMap fun (surface, calls) => plainSurface surface calls

/-- The plain text of a report without its table. -/
def plainWithoutTable (report : CoverageReport) : String :=
  Text.unlines report.plainListing

/-- The plain text of a report. -/
def plain (report : CoverageReport) : String :=
  Text.unlines (report.plainListing ++ plainTable report.summary)

end CoverageReport

end ApiCoverage
