import Mathlib
import ApiCoverage.Proofs.ClassFile.LineTable
import ApiCoverage.Proofs.Scan.Sites

/-!
# Where annotations count

An annotation of a tracked annotation type counts for the methods whose values it sets, or for the
usage key where the type declares no methods. The place that counts follows from where the annotation
stands: on the class, on a method with a body, or on a parameter of such a method. Together with the
calls these places are all that the scan of a class file adds for a method of an annotation type.
-/

namespace ApiCoverage

open ClassFile (AnnotationUse ClassUnit CodeBody MethodDecl)

/-! ## Lines above a body -/

namespace ClassFile.CodeBody

/-- A line stands a distance above the first line of a body. It is unknown if the body has no line
table, or if there is no such line. -/
inductive StandsAbove (distance : Nat) (body : CodeBody) : Option Nat → Prop where
  | known {line : Nat} (first : body.firstLine = some (line + distance)) (positive : 0 < line) :
      StandsAbove distance body (some line)
  | untabled (lacks : body.hasLineTable = false) : StandsAbove distance body none
  | tooHigh {first : Nat} (starts : body.firstLine = some first) (high : first ≤ distance) :
      StandsAbove distance body none

theorem standsAbove_iff {distance : Nat} {body : CodeBody} {line : Option Nat} :
    StandsAbove distance body line ↔ line = Usage.lineBefore distance body.firstLine := by
  constructor
  · intro stands
    cases stands with
    | known first positive => simp [Usage.lineBefore, first, positive]
    | untabled lacks => simp [Usage.lineBefore, firstLine_eq_none_iff.2 lacks]
    | tooHigh starts high => simp [Usage.lineBefore, starts, Nat.not_lt.2 high]
  · rintro rfl
    cases starts : body.firstLine with
    | none => exact .untabled (firstLine_eq_none_iff.1 starts)
    | some first =>
        by_cases below : distance < first
        · rw [Usage.lineBefore, Option.bind_some, if_pos below]
          refine .known ?_ (Nat.sub_pos_of_lt below)
          rw [starts, Nat.sub_add_cancel (Nat.le_of_lt below)]
        · rw [Usage.lineBefore, Option.bind_some, if_neg below]
          exact .tooHigh starts (Nat.not_lt.1 below)

end ClassFile.CodeBody

/-! ## Annotations that count -/

/-- An annotation counts for a method of a surface: it is of the type of the surface, and sets the
value of the method, or the type declares no methods and the method is the usage key. -/
def TrackedSurface.Hit (name : String) (surface : TrackedSurface) (key : MethodKey)
    (use : AnnotationUse) : Prop :=
  use.typeName = name ∧
    (surface.hasMembers = true ∧ key.name ∈ use.members ∨
      surface.hasMembers = false ∧ key = .usage)

/-- The places of the annotations of a class file that count. Those of the class itself have no line,
and a method without a body has none. -/
inductive Marked (unit : ClassUnit) (hit : AnnotationUse → Prop) : CallSite → Prop where
  | onClass {use : AnnotationUse} (given : use ∈ unit.annotations) (hits : hit use) :
      Marked unit hit ⟨unit.name, "<class>", none⟩
  | onMethod {method : MethodDecl} {body : CodeBody} {use : AnnotationUse} {line : Option Nat}
      (declared : method ∈ unit.methods) (code : method.body = some body)
      (given : use ∈ method.annotations) (hits : hit use) (above : body.StandsAbove 2 line) :
      Marked unit hit ⟨unit.name, method.signature, line⟩
  | onParameter {method : MethodDecl} {body : CodeBody} {uses : List AnnotationUse}
      {use : AnnotationUse} {line : Option Nat}
      (declared : method ∈ unit.methods) (code : method.body = some body)
      (parameter : uses ∈ method.parameterAnnotations) (given : use ∈ uses) (hits : hit use)
      (above : body.StandsAbove 1 line) :
      Marked unit hit ⟨unit.name, method.signature, line⟩

section Counting

variable {tracked : TrackedSurfaces} {name : String} {surface : TrackedSurface} {key : MethodKey}

/-- For a tracked method of an annotation type, an annotation counts exactly if it hits the method. -/
theorem Usage.mem_annotationTargets_iff_hit (known : tracked.get? name = some surface)
    (kind : surface.isAnnotationType = true) (tracks : key ∈ surface.methods.elements)
    {use : AnnotationUse} :
    ⟨name, key⟩ ∈ annotationTargets tracked use ↔ surface.Hit name key use := by
  rw [mem_annotationTargets_iff, TrackedSurface.Hit]
  constructor
  · rintro ⟨other, found, _, rfl, counts⟩
    cases known.symm.trans found
    refine ⟨rfl, ?_⟩
    cases members : surface.hasMembers with
    | false => exact .inr ⟨rfl, by simpa [members] using counts⟩
    | true =>
        have sets : use.sets key.name = true := by simpa [members, tracks] using counts
        exact .inl ⟨rfl, List.contains_iff_mem.1 sets⟩
  · rintro ⟨rfl, counts⟩
    refine ⟨surface, known, kind, rfl, ?_⟩
    rcases counts with ⟨members, sets⟩ | ⟨members, usage⟩
    · rw [if_pos members]
      exact ⟨tracks, List.contains_iff_mem.2 sets⟩
    · simpa [members] using usage

/-- For a tracked method of an annotation type, the annotations that count are those that hit it. -/
theorem annotates_iff_marked (known : tracked.get? name = some surface)
    (kind : surface.isAnnotationType = true) (tracks : key ∈ surface.methods.elements)
    {unit : ClassUnit} {site : CallSite} :
    Annotates tracked unit ⟨name, key⟩ site ↔ Marked unit (surface.Hit name key) site := by
  have hit : ∀ {use : AnnotationUse},
      ⟨name, key⟩ ∈ Usage.annotationTargets tracked use ↔ surface.Hit name key use :=
    Usage.mem_annotationTargets_iff_hit known kind tracks
  constructor
  · intro annotates
    cases annotates with
    | onClass given counts => exact .onClass given (hit.1 counts)
    | onMethod declared code given counts =>
        exact .onMethod declared code given (hit.1 counts) (CodeBody.standsAbove_iff.2 rfl)
    | onParameter declared code parameter given counts =>
        exact .onParameter declared code parameter given (hit.1 counts)
          (CodeBody.standsAbove_iff.2 rfl)
  · intro marked
    cases marked with
    | onClass given hits => exact .onClass given (hit.2 hits)
    | onMethod declared code given hits above =>
        cases CodeBody.standsAbove_iff.1 above
        exact .onMethod declared code given (hit.2 hits)
    | onParameter declared code parameter given hits above =>
        cases CodeBody.standsAbove_iff.1 above
        exact .onParameter declared code parameter given (hit.2 hits)

end Counting

namespace CoverageReport

/-- After the scan of a class file, the call sites of a tracked method of an annotation type are those
that the report held, the calls of the method in the class file, and the places of the annotations
that hit the method. -/
theorem mem_sites_scanUnit_annotationType_iff {report : CoverageReport} {tracked : TrackedSurfaces}
    (seeded : report.SeededFrom tracked) (unit : ClassUnit) {name : String}
    {surface : TrackedSurface} {key : MethodKey} (known : tracked.get? name = some surface)
    (kind : surface.isAnnotationType = true) (tracks : key ∈ surface.methods.elements) :
    ∃ before after, report.calls? name key = some before ∧
      (report.scanUnit tracked unit).calls? name key = some after ∧
      ∀ site, site ∈ after.elements ↔
        site ∈ before.elements ∨ Calls tracked unit ⟨name, key⟩ site ∨
          Marked unit (surface.Hit name key) site := by
  rcases seeded.exists_calls? ⟨surface, known, tracks⟩ with ⟨before, held⟩
  rcases exists_calls?_scanUnit ⟨name, key⟩ held unit with ⟨after, found, members⟩
  refine ⟨before, after, held, found, ?_⟩
  intro site
  rw [members, annotates_iff_marked known kind tracks]

/-- An annotation type with a tracked method. -/
def settingSurface : TrackedSurface :=
  ⟨.annotationType, [], OrderedSet.empty.insert ⟨"value", "()I"⟩, true⟩

def settingSurfaces : TrackedSurfaces :=
  TrackedSurfaces.empty.insert "a.Setting" settingSurface

/-- A class that sets the value of the annotation type at every kind of place, once too high up for a
line and once on a method without a body, and that calls the method in its fourth line. -/
def settingUnit : ClassUnit where
  minorVersion := 0
  majorVersion := 61
  access := .ofPublic
  name := "b.Client"
  superName := none
  interfaces := []
  sourceFile := none
  annotations := [⟨"a.Setting", ["value"]⟩, ⟨"a.Setting", ["other"]⟩]
  symbols := #[.other, .interfaceMethod ⟨"a.Setting", "value", "()I"⟩]
  methods := [
    { name := "open", descriptor := "()V", access := .ofPublic
      annotations := [⟨"a.Setting", ["value"]⟩]
      body := some ⟨[0xB1], some #[⟨0, 2⟩]⟩ },
    { name := "run", descriptor := "(I)V", access := .ofPublic
      annotations := [⟨"a.Setting", ["other", "value"]⟩]
      parameterAnnotations := [[⟨"a.Other", ["value"]⟩, ⟨"a.Setting", ["value"]⟩]]
      body := some ⟨[0x00, 0xB9, 0, 1, 1, 0], some #[⟨0, 3⟩, ⟨1, 4⟩]⟩ },
    { name := "stop", descriptor := "()V", access := .ofPublic
      annotations := [⟨"a.Setting", ["value"]⟩] }]

theorem mem_sites_scanUnit_annotationType_sample :
    settingSurfaces.seedReport.SeededFrom settingSurfaces ∧
      settingSurfaces.get? "a.Setting" = some settingSurface ∧
      settingSurface.isAnnotationType = true ∧
      ⟨"value", "()I"⟩ ∈ settingSurface.methods.elements ∧
      ∃ before after, settingSurfaces.seedReport.calls? "a.Setting" ⟨"value", "()I"⟩ = some before ∧
        (settingSurfaces.seedReport.scanUnit settingSurfaces settingUnit).calls? "a.Setting"
          ⟨"value", "()I"⟩ = some after ∧
        (∀ site, site ∈ after.elements ↔ site ∈ before.elements ∨
          Calls settingSurfaces settingUnit ⟨"a.Setting", ⟨"value", "()I"⟩⟩ site ∨
            Marked settingUnit (settingSurface.Hit "a.Setting" ⟨"value", "()I"⟩) site) ∧
        after.elements = [⟨"b.Client", "<class>", none⟩, ⟨"b.Client", "open()", none⟩,
          ⟨"b.Client", "run(int)", some 1⟩, ⟨"b.Client", "run(int)", some 2⟩,
          ⟨"b.Client", "run(int)", some 4⟩] := by
  have seeded := seededFrom_seedReport settingSurfaces
  have known : settingSurfaces.get? "a.Setting" = some settingSurface := rfl
  have tracks : ⟨"value", "()I"⟩ ∈ settingSurface.methods.elements := by decide
  have places : ((settingSurfaces.seedReport.scanUnit settingSurfaces settingUnit).calls?
      "a.Setting" ⟨"value", "()I"⟩).map OrderedSet.elements =
        some [⟨"b.Client", "<class>", none⟩, ⟨"b.Client", "open()", none⟩,
          ⟨"b.Client", "run(int)", some 1⟩, ⟨"b.Client", "run(int)", some 2⟩,
          ⟨"b.Client", "run(int)", some 4⟩] := by
    cbv
  rcases mem_sites_scanUnit_annotationType_iff seeded settingUnit known rfl tracks with
    ⟨before, after, held, found, members⟩
  rw [found] at places
  exact ⟨seeded, known, rfl, tracks, before, after, held, found, members, Option.some.inj places⟩

end CoverageReport

end ApiCoverage
