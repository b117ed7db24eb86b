import ApiCoverage.JsonValue
import ApiCoverage.Report.Summary

/-!
# Reports as JSON

The whole report with all its parts: the counts in total, and for every surface its counts, its
methods and their call sites. The counts are those of the summary, whose rows are walked beside the
surfaces. An unknown line is `null`.
-/

namespace ApiCoverage

/-- The counts of a surface as JSON. -/
def SurfaceStats.toJson (stats : SurfaceStats) : JsonValue :=
  .object [("tracked_methods", .natural stats.tracked), ("covered_methods", .natural stats.covered),
    ("call_sites", .natural stats.callSites), ("percent", .decimal stats.percent)]

/-- A call site as JSON. -/
def CallSite.toJson (site : CallSite) : JsonValue :=
  let line := match site.line with
    | some line => .natural line
    | none => .null
  .object [("unit", .string site.unit), ("method", .string site.method), ("line", line)]

/-- A method with its call sites as JSON. -/
def MethodKey.toJson (key : MethodKey) (sites : OrderedSet CallSite) : JsonValue :=
  .object [("name", .string key.name), ("descriptor", .string key.descriptor),
    ("signature", .string key.signature), ("covered", .boolean !sites.isEmpty),
    ("call_sites", .array (sites.elements.map CallSite.toJson))]

/-- A surface with its methods as JSON, beside a row of the summary. -/
def MethodCalls.toJson (surface : String) (calls : MethodCalls) (row : SurfaceStats) : JsonValue :=
  .object [("name", .string surface), ("summary", row.toJson),
    ("methods", .array (calls.entries.map fun (key, sites) => key.toJson sites))]

namespace CoverageReport

/-- A report as JSON. -/
def toJson (report : CoverageReport) : JsonValue :=
  let summary := report.summary
  .object [("summary", summary.total.toJson),
    ("surfaces", .array ((report.surfaces.entries.zip summary.surfaces).map
      fun ((surface, calls), row) => calls.toJson surface row))]

/-- The JSON document of a report. -/
def json (report : CoverageReport) : String :=
  report.toJson.document

end CoverageReport

end ApiCoverage
