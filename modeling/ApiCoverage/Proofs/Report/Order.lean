import ApiCoverage.Report
import Mathlib.Order.Basic

/-!
# The order of a report

A report holds its surfaces by name, the methods of a surface by name and descriptor, and the call
sites of a method by class, method and line, each of them once. The comparisons that keep it so are
stated here as orders of their own, with an unknown line before every known one.
-/

namespace ApiCoverage

/-- Texts are ordered by their characters. -/
theorem compare_text_eq_lt_iff {first second : String} :
    compare first second = .lt ↔ first < second := by
  change compareOfLessAndEq first second = .lt ↔ _
  unfold compareOfLessAndEq
  split
  · simp_all
  · split <;> simp_all

namespace MethodKey

/-- A method comes before one with a larger name, and before one with the same name and a larger
descriptor. -/
def Precedes (first second : MethodKey) : Prop :=
  first.name < second.name ∨ first.name = second.name ∧ first.descriptor < second.descriptor

theorem compare_eq_lt_iff {first second : MethodKey} :
    compare first second = .lt ↔ first.Precedes second := by
  change (compare first.name second.name).then (compare first.descriptor second.descriptor) = .lt ↔
    first.Precedes second
  rw [Ordering.then_eq_lt, compare_text_eq_lt_iff, compare_text_eq_lt_iff,
    Std.LawfulEqCmp.compare_eq_iff_eq, Precedes]

end MethodKey

namespace CallSite

/-- An unknown line comes before every known one. -/
def LinePrecedes : Option Nat → Option Nat → Prop
  | _, none => False
  | none, some _ => True
  | some first, some second => first < second

theorem compare_line_eq_lt_iff {first second : Option Nat} :
    compare first second = .lt ↔ LinePrecedes first second := by
  cases first with
  | none =>
      cases second with
      | none => simp [LinePrecedes]
      | some second => exact iff_of_true rfl trivial
  | some first =>
      cases second with
      | none => simp [LinePrecedes]
      | some second => exact Nat.compare_eq_lt

/-- Call sites come by class, within a class by method, and within a method by line. -/
def Precedes (first second : CallSite) : Prop :=
  first.unit < second.unit ∨ first.unit = second.unit ∧
    (first.method < second.method ∨
      first.method = second.method ∧ LinePrecedes first.line second.line)

theorem compare_eq_lt_iff {first second : CallSite} :
    compare first second = .lt ↔ first.Precedes second := by
  change (compare first.unit second.unit).then
    ((compare first.method second.method).then (compare first.line second.line)) = .lt ↔
      first.Precedes second
  simp only [Ordering.then_eq_lt, compare_text_eq_lt_iff, compare_line_eq_lt_iff,
    Std.LawfulEqCmp.compare_eq_iff_eq, Precedes]

end CallSite

namespace CoverageReport

/-- What a report holds stands in order at every level, and nothing stands there twice. -/
structure InOrder (report : CoverageReport) : Prop where
  surfaces : report.surfaces.entries.Pairwise fun first second => first.1 < second.1
  methods : ∀ name calls, (name, calls) ∈ report.surfaces.entries →
    calls.entries.Pairwise fun first second => first.1.Precedes second.1
  sites : ∀ name calls, (name, calls) ∈ report.surfaces.entries →
    ∀ key sites, (key, sites) ∈ calls.entries → sites.elements.Pairwise CallSite.Precedes

theorem inOrder (report : CoverageReport) : report.InOrder where
  surfaces := report.surfaces.increasing.imp compare_text_eq_lt_iff.1
  methods _ calls _ := calls.increasing.imp MethodKey.compare_eq_lt_iff.1
  sites _ _ _ _ sites _ := sites.increasing.imp CallSite.compare_eq_lt_iff.1

end CoverageReport

end ApiCoverage
