import ApiCoverage.Decimal.Binary64
import ApiCoverage.Report
import ApiCoverage.Sum

/-!
# Coverage summaries

Counts per surface and in total, and the share of tracked methods that are covered.
-/

namespace ApiCoverage

/-- The counts of one surface, or of all of them together. -/
structure SurfaceStats where
  surface : String
  tracked : Nat
  covered : Nat
  callSites : Nat
  deriving DecidableEq, Repr

namespace SurfaceStats

open Decimal (Binary64)

/-- The share of tracked methods with a call site in percent: the quotient rounded to a binary
fraction, then the product with one hundred rounded again. Where nothing is tracked the share is
full. -/
def percent (stats : SurfaceStats) : Binary64 :=
  if stats.tracked = 0 then .ofNat 100
  else
    let share := (Binary64.ofNat stats.covered).div (.ofNat stats.tracked)
    share.mul (.ofNat 100)

/-- The counts of a surface. -/
def ofCalls (surface : String) (calls : MethodCalls) : SurfaceStats where
  surface := surface
  tracked := calls.size
  covered := calls.values.countP fun sites => !sites.isEmpty
  callSites := sumBy OrderedSet.size calls.values

/-- The sums of the counts of several surfaces. -/
def total (rows : List SurfaceStats) : SurfaceStats where
  surface := "Total"
  tracked := sumBy SurfaceStats.tracked rows
  covered := sumBy SurfaceStats.covered rows
  callSites := sumBy SurfaceStats.callSites rows

end SurfaceStats

/-- The counts of every surface, in report order, and their sums. -/
structure CoverageSummary where
  surfaces : List SurfaceStats
  total : SurfaceStats
  deriving DecidableEq, Repr

namespace CoverageReport

/-- The summary of a report. -/
def summary (report : CoverageReport) : CoverageSummary :=
  let rows := report.surfaces.entries.map fun (surface, calls) =>
    SurfaceStats.ofCalls surface calls
  ⟨rows, .total rows⟩

/-- The rows of a summary stand beside the surfaces that they count: walked side by side, both lists
end together, and every surface meets its own row. -/
theorem zip_summary (report : CoverageReport) :
    report.surfaces.entries.zip report.summary.surfaces =
      report.surfaces.entries.map fun (surface, calls) =>
        ((surface, calls), SurfaceStats.ofCalls surface calls) := by
  unfold summary
  induction report.surfaces.entries with
  | nil => rfl
  | cons entry rest ih => rw [List.map_cons, List.zip_cons_cons, ih, List.map_cons]

end CoverageReport

end ApiCoverage
