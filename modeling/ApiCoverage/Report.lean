import ApiCoverage.CallSite
import ApiCoverage.MethodKey
import ApiCoverage.Ordered.Map
import ApiCoverage.Ordered.Set
import ApiCoverage.Sum

/-!
# Coverage reports

A report tells, for every tracked method of every tracked surface, from where it is called. Its
keys are seeded before scanning; recording a call site adds to an existing key and drops a site
whose key is absent, so a scan never changes the keys.
-/

namespace ApiCoverage

/-- The call sites of the methods of one surface. -/
abbrev MethodCalls := OrderedMap MethodKey (OrderedSet CallSite)

/-- The call sites of every tracked method, by surface name and method key. -/
structure CoverageReport where
  surfaces : OrderedMap String MethodCalls

namespace CoverageReport

/-- The report without keys. -/
def empty : CoverageReport :=
  ⟨.empty⟩

/-- The report with a surface, which has no methods if it is new. -/
def seedSurface (report : CoverageReport) (surface : String) : CoverageReport :=
  ⟨report.surfaces.insertIfNew surface .empty⟩

/-- The report with a method of a surface, which has no call sites if it is new. -/
def seed (report : CoverageReport) (surface : String) (key : MethodKey) : CoverageReport :=
  ⟨(report.seedSurface surface).surfaces.modify surface (·.insertIfNew key .empty)⟩

/-- The report with one more call site of a seeded method. -/
def record (report : CoverageReport) (surface : String) (key : MethodKey) (site : CallSite) :
    CoverageReport :=
  ⟨report.surfaces.modify surface (·.modify key (·.insert site))⟩

/-- The call sites of a method, if it is tracked. -/
def calls? (report : CoverageReport) (surface : String) (key : MethodKey) :
    Option (OrderedSet CallSite) := do
  let calls ← report.surfaces.get? surface
  calls.get? key

/-- Every method with its surface and its call sites, in report order. -/
def methods (report : CoverageReport) : List (String × MethodKey × OrderedSet CallSite) :=
  report.surfaces.entries.flatMap fun (surface, calls) =>
    calls.entries.map fun (key, sites) => (surface, key, sites)

/-- Whether no method is tracked. -/
def isEmpty (report : CoverageReport) : Bool :=
  report.surfaces.values.all fun calls => calls.entries.isEmpty

/-- The number of tracked methods. -/
def trackedCount (report : CoverageReport) : Nat :=
  sumBy OrderedMap.size report.surfaces.values

/-- The number of tracked methods with a call site. -/
def coveredCount (report : CoverageReport) : Nat :=
  (report.surfaces.values.flatMap OrderedMap.values).countP fun sites => !sites.isEmpty

/-- The number of call sites, counted once per method that they belong to. -/
def callSiteCount (report : CoverageReport) : Nat :=
  sumBy OrderedSet.size (report.surfaces.values.flatMap OrderedMap.values)

end CoverageReport

end ApiCoverage
