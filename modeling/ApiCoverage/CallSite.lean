import ApiCoverage.Descriptor

/-!
# Call sites

A call site is a place in the scanned code that uses a tracked method: the class, the method and
the source line, if the class file tells it. Call sites are ordered by class, method and line, and
an unknown line comes first.
-/

namespace ApiCoverage

/-- One place that uses a tracked method. -/
structure CallSite where
  /-- The dotted name of the class that holds the call. -/
  unit : String
  /-- The display form of the method that holds the call. -/
  method : String
  line : Option Nat
  deriving DecidableEq, Repr

namespace CallSite

instance : Ord CallSite where
  compare := compareLex (compareOn unit) (compareLex (compareOn method) (compareOn line))

instance : Std.TransOrd CallSite :=
  inferInstanceAs
    (Std.TransCmp (compareLex (compareOn unit) (compareLex (compareOn method) (compareOn line))))

instance : Std.LawfulEqOrd CallSite where
  eq_of_compare {first second} same := by
    change (compare first.unit second.unit).then
      ((compare first.method second.method).then (compare first.line second.line)) = .eq at same
    rw [Ordering.then_eq_eq, Ordering.then_eq_eq] at same
    cases first
    cases second
    simp_all [Std.LawfulEqCmp.compare_eq_iff_eq]

/-- The text for a line number or its absence. -/
def lineText : Option Nat → String
  | some line => toString line
  | none => "?"

/-- The form `class @ method # line`. -/
def display (site : CallSite) : String :=
  s!"{site.unit} @ {site.method} # {lineText site.line}"

/-- The class name without its package. -/
def simpleUnitName (site : CallSite) : String :=
  JvmType.lastSegment site.unit

/-- The part of a name before its first `$`: the outermost class. -/
def outerName (name : String) : String :=
  String.ofList (name.toList.takeWhile (· != '$'))

/-- The path of the source file of the outermost class, relative to a source root. -/
def sourcePath (site : CallSite) : String :=
  let outer := (outerName site.unit).toList.map fun char => if char = '.' then '/' else char
  String.ofList outer ++ ".java"

end CallSite

end ApiCoverage
