import ApiCoverage.Proofs.ClassFile.Cut
import ApiCoverage.Proofs.Scan.Sites

/-!
# Code that cannot be decoded to its end

Where the code of a method cannot be decoded, the scan of its class file logs one event that names
the place, and goes on. What stands before the place counts, and what stands behind it does not, as
if the code ended there; the other methods are not concerned. A class file that refers to no tracked
method is only looked at for annotations, so without a tracked annotation type it leaves no event.
-/

namespace ApiCoverage

open ClassFile (ClassUnit CodeBody Fault MethodDecl Symbol)

namespace ClassFile

/-- Whether a method has code that cannot be decoded to its end. -/
def MethodDecl.isUndecodable (method : MethodDecl) : Bool :=
  method.body.any fun body => body.instructions.fault.isSome

/-- The method with its code cut where decoding stops. -/
def MethodDecl.cut (method : MethodDecl) : MethodDecl :=
  { method with body := method.body.map CodeBody.cut }

/-- The class file with the code of every method cut where decoding stops. -/
def ClassUnit.cut (unit : ClassUnit) : ClassUnit :=
  { unit with methods := unit.methods.map MethodDecl.cut }

@[simp]
theorem MethodDecl.signature_cut (method : MethodDecl) : method.cut.signature = method.signature :=
  rfl

end ClassFile

/-- The event for a method whose decoding stops: it names the class and the method, the fault and the
offset that the fault names, and the method is cut at this offset. -/
inductive ReportsStop (unit : String) (method : MethodDecl) : ScanEvent → Prop where
  | intro {body : CodeBody} {offset : Nat} {fault : Fault}
      (code : method.body = some body)
      (stops : body.Stops offset fault)
      (cut : method.cut = { method with body := some { body with code := body.code.take offset } }) :
      ReportsStop unit method (.methodSkipped unit method.signature offset fault)

/-- A class file is looked at if one of its symbols leads to a tracked method, or if an annotation type
is tracked. -/
def TrackedSurfaces.Concerns (tracked : TrackedSurfaces) (unit : ClassUnit) : Prop :=
  (∃ symbol ∈ unit.symbols, ∃ ref, symbol.member? = some ref ∧
    ∃ surface, tracked.declarer? ref.owner ⟨ref.name, ref.descriptor⟩ = some surface) ∨
  ∃ name surface, tracked.get? name = some surface ∧ surface.isAnnotationType = true

/-- The log with the events of a class file added. -/
def ScanLog.scanUnit (tracked : TrackedSurfaces) (log : ScanLog) (unit : ClassUnit) : ScanLog :=
  log ++ ⟨(UnitScan.ofUnit tracked unit).events, 0⟩

namespace SymbolIndex

variable {tracked : TrackedSurfaces} {unit : ClassUnit}

theorem targetOfSymbol?_eq_bind (symbol : Symbol) :
    targetOfSymbol? tracked symbol = symbol.member?.bind tracked.targetOf? := by
  cases symbol <;> rfl

/-- An index is not empty if a symbol leads to a tracked method. -/
theorem isEmpty_ofUnit_eq_false_iff :
    (ofUnit tracked unit).isEmpty = false ↔
      ∃ symbol ∈ unit.symbols, ∃ ref, symbol.member? = some ref ∧
        ∃ surface, tracked.declarer? ref.owner ⟨ref.name, ref.descriptor⟩ = some surface := by
  have leads (symbol : Symbol) : ¬(targetOfSymbol? tracked symbol).isNone = true ↔
      ∃ ref, symbol.member? = some ref ∧
        ∃ surface, tracked.declarer? ref.owner ⟨ref.name, ref.descriptor⟩ = some surface := by
    rw [targetOfSymbol?_eq_bind]
    cases symbol.member? with
    | none => simp
    | some ref => simp [TrackedSurfaces.targetOf?, Option.ne_none_iff_exists']
  simp only [isEmpty, ofUnit, Array.toList_map, List.all_map, List.all_eq_false, Array.mem_toList_iff,
    Function.comp_apply, leads]

end SymbolIndex

namespace TrackedSurfaces

variable {tracked : TrackedSurfaces} {unit : ClassUnit}

theorem hasAnnotationTypes_iff :
    tracked.hasAnnotationTypes = true ↔
      ∃ name surface, tracked.get? name = some surface ∧ surface.isAnnotationType = true := by
  simp [hasAnnotationTypes, OrderedMap.values, get?_eq_some_iff]

/-- The scan passes over exactly the class files that are not to be looked at. -/
theorem concerns_iff : tracked.Concerns unit ↔
    ((SymbolIndex.ofUnit tracked unit).isEmpty && !tracked.hasAnnotationTypes) = false := by
  rw [Concerns, ← SymbolIndex.isEmpty_ofUnit_eq_false_iff, ← hasAnnotationTypes_iff]
  cases (SymbolIndex.ofUnit tracked unit).isEmpty <;> simp

end TrackedSurfaces

/-! ## What is logged -/

namespace ClassFile.MethodDecl

variable {method : MethodDecl}

/-- A method that can be decoded to its end is not cut. -/
theorem cut_eq_self (decodable : method.isUndecodable = false) : method.cut = method := by
  unfold isUndecodable at decodable
  unfold cut
  cases code : method.body with
  | none => rw [Option.map_none, ← code]
  | some body =>
      rw [code, Option.any_some, Option.isSome_eq_false_iff, Option.isNone_iff_eq_none] at decodable
      rw [Option.map_some, CodeBody.cut_of_decodable decodable, ← code]

end ClassFile.MethodDecl

namespace ScanEvent

variable {unit : String} {method : MethodDecl}

theorem ofMethod?_eq_none_iff : ofMethod? unit method = none ↔ method.isUndecodable = false := by
  unfold ofMethod? MethodDecl.isUndecodable
  cases method.body with
  | none => simp
  | some body => cases ends : body.instructions.fault <;> simp [ends]

theorem reportsStop_of_ofMethod? {event : ScanEvent} (given : ofMethod? unit method = some event) :
    ReportsStop unit method event := by
  rcases Option.bind_eq_some_iff.1 given with ⟨body, code, given⟩
  rcases Option.bind_eq_some_iff.1 given with ⟨fault, ends, given⟩
  cases given
  have stops := CodeBody.stops_of_fault ends
  refine .intro code stops ?_
  rw [MethodDecl.cut, code, Option.map_some, CodeBody.cut_of_stops stops]

/-- The events of methods are those of the methods that cannot be decoded, one each and in order. -/
theorem forall₂_filterMap_ofMethod? (unit : String) (methods : List MethodDecl) :
    List.Forall₂ (ReportsStop unit) (methods.filter MethodDecl.isUndecodable)
      (methods.filterMap (ofMethod? unit)) := by
  induction methods with
  | nil => exact .nil
  | cons method rest ih =>
      cases given : ofMethod? unit method with
      | none =>
          rw [List.filterMap_cons_none given,
            List.filter_cons_of_neg (by rw [ofMethod?_eq_none_iff.1 given]; exact Bool.false_ne_true)]
          exact ih
      | some event =>
          have stuck : method.isUndecodable = true := by
            by_contra decodable
            rw [Bool.not_eq_true, ← ofMethod?_eq_none_iff, given] at decodable
            cases decodable
          rw [List.filterMap_cons_some given, List.filter_cons_of_pos stuck]
          exact .cons (reportsStop_of_ofMethod? given) ih

end ScanEvent

/-! ## What is recorded -/

namespace Usage

variable {tracked : TrackedSurfaces} {index : SymbolIndex} {unit : String}

theorem ofCode_cut (method : String) (body : CodeBody) :
    ofCode index unit method body.cut = ofCode index unit method body := by
  simp [ofCode]

theorem ofMethodAnnotations_cut (method : MethodDecl) (body : CodeBody) :
    ofMethodAnnotations tracked unit method.cut body.cut =
      ofMethodAnnotations tracked unit method body := by
  simp only [ofMethodAnnotations, MethodDecl.signature_cut, CodeBody.firstLine,
    CodeBody.lineFor_cut]
  rfl

theorem ofMethod_cut (method : MethodDecl) :
    ofMethod tracked index unit method.cut = ofMethod tracked index unit method := by
  have body_cut : method.cut.body = method.body.map CodeBody.cut := rfl
  simp only [ofMethod, body_cut]
  cases method.body with
  | none => rfl
  | some body =>
      simp only [Option.map_some, MethodDecl.signature_cut, ofCode_cut, ofMethodAnnotations_cut]

end Usage

theorem ScanEvent.ofMethod?_cut (unit : String) (method : MethodDecl) :
    ofMethod? unit method.cut = none := by
  rw [ofMethod?_eq_none_iff, MethodDecl.isUndecodable]
  change (method.body.map CodeBody.cut).any _ = false
  cases method.body <;> simp

/-- Cutting a class file where decoding stops takes its events away and keeps its usages. -/
theorem UnitScan.ofUnit_cut (tracked : TrackedSurfaces) (unit : ClassUnit) :
    ofUnit tracked unit.cut = ⟨(ofUnit tracked unit).usages, []⟩ := by
  have index : SymbolIndex.ofUnit tracked unit.cut = SymbolIndex.ofUnit tracked unit := rfl
  have usages : Usage.ofIndexed tracked (.ofUnit tracked unit) unit.cut =
      Usage.ofIndexed tracked (.ofUnit tracked unit) unit := by
    simp only [Usage.ofIndexed, ClassUnit.cut, List.flatMap_map, Usage.ofMethod_cut]
  have events : unit.cut.methods.filterMap (ScanEvent.ofMethod? unit.cut.name) = [] := by
    simp [ClassUnit.cut, ScanEvent.ofMethod?_cut]
  simp only [ofUnit, index, usages, events]
  split <;> rfl

/-- Code that cannot be decoded to its end is reported once and otherwise counts up to there. A class
file that is looked at leaves one event for each method whose decoding ends in a fault, in order, and
any other class file leaves none; the report is that of the class file whose codes end where decoding
stops, which leaves no event. -/
theorem scanUnit_reports_undecodable (tracked : TrackedSurfaces) (unit : ClassUnit)
    (report : CoverageReport) (log : ScanLog) :
    (∃ events, (log.scanUnit tracked unit).events = log.events ++ events ∧
      (¬tracked.Concerns unit → events = []) ∧
      (tracked.Concerns unit → List.Forall₂ (ReportsStop unit.name)
        (unit.methods.filter MethodDecl.isUndecodable) events)) ∧
    (∀ method : MethodDecl, method.isUndecodable = false → method.cut = method) ∧
    report.scanUnit tracked unit = report.scanUnit tracked unit.cut ∧
    (log.scanUnit tracked unit.cut).events = log.events := by
  refine ⟨⟨(UnitScan.ofUnit tracked unit).events, rfl, ?_, ?_⟩, fun _ => MethodDecl.cut_eq_self,
    ?_, ?_⟩
  · intro passed
    rw [TrackedSurfaces.concerns_iff, Bool.not_eq_false] at passed
    simp only [UnitScan.ofUnit, passed, if_true]
  · intro concerns
    rw [TrackedSurfaces.concerns_iff] at concerns
    simp only [UnitScan.ofUnit, concerns, Bool.false_eq_true, if_false]
    exact ScanEvent.forall₂_filterMap_ofMethod? unit.name unit.methods
  · rw [CoverageReport.scanUnit, CoverageReport.scanUnit, UnitScan.ofUnit_cut]
  · change log.events ++ (UnitScan.ofUnit tracked unit.cut).events = log.events
    rw [UnitScan.ofUnit_cut, List.append_nil]

example : (ScanLog.empty.scanUnit CoverageReport.sampleSurfaces CoverageReport.sampleUnit).events =
    [.methodSkipped "b.Client" "run()" 5 (.invalidOpcode 0xFD 5)] := by
  cbv

end ApiCoverage
