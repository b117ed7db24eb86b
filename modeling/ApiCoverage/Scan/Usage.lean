import ApiCoverage.Scan.Log
import ApiCoverage.Scan.SymbolIndex
import ApiCoverage.Sum

/-!
# What a class file uses

A class file uses a tracked method where its code calls the method, and a tracked annotation type
where an annotation of that type stands on the class, on a method with a body or on a parameter of
such a method. Annotations have no line of their own: those of a method are taken to stand two lines
before its first line, and those of parameters one line before.

The usages depend on the class file and on the tracked surfaces alone. Recording them adds call
sites to a report.
-/

namespace ApiCoverage

open ClassFile (AnnotationUse ClassUnit CodeBody MethodDecl)

/-- A tracked method and a place that uses it. -/
structure Usage where
  target : TrackedMethod
  site : CallSite
  deriving DecidableEq, Repr

/-- The report with the call sites of usages added. -/
def CoverageReport.recordAll (report : CoverageReport) (usages : List Usage) : CoverageReport :=
  usages.foldl (fun report usage =>
    report.record usage.target.surface usage.target.key usage.site) report

namespace Usage

/-- The calls of tracked methods in a body. -/
def ofCode (index : SymbolIndex) (unit method : String) (body : CodeBody) : List Usage :=
  body.instructions.instructions.filterMap fun instruction => do
    let target ← instruction.invokedSlot?.bind index.get?
    return ⟨target, ⟨unit, method, body.lineFor instruction.offset⟩⟩

/-- The tracked methods that an annotation uses: the methods whose values it sets, or the usage key
of an annotation type without methods. -/
def annotationTargets (tracked : TrackedSurfaces) (use : AnnotationUse) : List TrackedMethod :=
  match tracked.get? use.typeName with
  | none => []
  | some surface =>
      if !surface.isAnnotationType then []
      else
        let keys :=
          if surface.hasMembers then
            surface.methods.elements.filter fun key => use.sets key.name
          else
            [.usage]
        keys.map fun key => ⟨use.typeName, key⟩

/-- The usages of a list of annotations at one place. -/
def ofAnnotations (tracked : TrackedSurfaces) (site : CallSite) (uses : List AnnotationUse) :
    List Usage :=
  (uses.flatMap (annotationTargets tracked)).map fun target => ⟨target, site⟩

/-- The line that stands a distance before another, if there is one. -/
def lineBefore (distance : Nat) (line : Option Nat) : Option Nat :=
  line.bind fun line => if distance < line then some (line - distance) else none

/-- The usages by the annotations of a method with a body and of its parameters. -/
def ofMethodAnnotations (tracked : TrackedSurfaces) (unit : String) (method : MethodDecl)
    (body : CodeBody) : List Usage :=
  let site (distance : Nat) : CallSite :=
    ⟨unit, method.signature, lineBefore distance body.firstLine⟩
  ofAnnotations tracked (site 2) method.annotations ++
    method.parameterAnnotations.flatMap (ofAnnotations tracked (site 1))

/-- The usages of a method. -/
def ofMethod (tracked : TrackedSurfaces) (index : SymbolIndex) (unit : String)
    (method : MethodDecl) : List Usage :=
  match method.body with
  | none => []
  | some body =>
      ofCode index unit method.signature body ++ ofMethodAnnotations tracked unit method body

/-- The name under which annotations of a class itself are counted. -/
def classMember : String := "<class>"

/-- The usages of a class file with a given index. -/
def ofIndexed (tracked : TrackedSurfaces) (index : SymbolIndex) (unit : ClassUnit) : List Usage :=
  ofAnnotations tracked ⟨unit.name, classMember, none⟩ unit.annotations ++
    unit.methods.flatMap (ofMethod tracked index unit.name)

end Usage

/-- The event for a method whose code cannot be decoded to its end. -/
def ScanEvent.ofMethod? (unit : String) (method : MethodDecl) : Option ScanEvent := do
  let body ← method.body
  let stream := body.instructions
  let fault ← stream.fault
  return .methodSkipped unit method.signature
    (sumBy ClassFile.Instruction.length stream.instructions) fault

/-- What the scan of a class file gives. -/
structure UnitScan where
  usages : List Usage
  events : List ScanEvent
  deriving DecidableEq, Repr

namespace UnitScan

/-- The scan of a class file. One that refers to no tracked method is not looked at, unless an
annotation type is tracked. -/
def ofUnit (tracked : TrackedSurfaces) (unit : ClassUnit) : UnitScan :=
  let index := SymbolIndex.ofUnit tracked unit
  if index.isEmpty && !tracked.hasAnnotationTypes then ⟨[], []⟩
  else ⟨Usage.ofIndexed tracked index unit, unit.methods.filterMap (ScanEvent.ofMethod? unit.name)⟩

end UnitScan

/-- The report with the call sites of a class file added. -/
def CoverageReport.scanUnit (tracked : TrackedSurfaces) (report : CoverageReport)
    (unit : ClassUnit) : CoverageReport :=
  report.recordAll (UnitScan.ofUnit tracked unit).usages

end ApiCoverage
