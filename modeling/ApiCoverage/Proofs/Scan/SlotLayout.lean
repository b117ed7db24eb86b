import ApiCoverage.Proofs.ClassFile.DraftCalls
import ApiCoverage.Proofs.Scan.Usage

/-!
# Scanning a drafted class

What a scan finds in a class file whose code is made of calls, line markers and returns can be read off
its draft, in which there are no slots. So it makes no difference which slots the constants have, nor
which references are reserved besides those that the code calls.
-/

namespace ApiCoverage

open ClassFile (AnnotationUse ClassDraft ClassStep ClassUnit CodeBody CodeDraft CodeStep DraftedCall
  Instruction InvokeKind MethodDecl MethodDraft Symbol)

/-! ## Parts of a draft -/

namespace ClassFile

/-- The source line of a code offset, by the drafted line markers. -/
def CodeDraft.lineFor (draft : CodeDraft) (offset : Nat) : Option Nat :=
  if draft.lineTable then
    (CodeBody.entryFor offset (CodeStep.markers 0 draft.steps).toArray).map fun entry =>
      entry.line.toNat
  else none

theorem CodeDraft.StandsFor.lineFor_eq {symbolAt : UInt16 → Option Symbol} {draft : CodeDraft}
    {body : CodeBody} (stands : draft.StandsFor symbolAt body) (fits : draft.Fits) (offset : Nat) :
    body.lineFor offset = draft.lineFor offset := by
  rw [CodeBody.lineFor, stands.lines_eq fits, lineFor]
  cases draft.lineTable with
  | false => rfl
  | true => rw [if_pos rfl, if_pos rfl, Option.map_eq_bind]; rfl

/-- The display form of a drafted method. -/
def MethodDraft.signature (draft : MethodDraft) : String :=
  MethodDecl.signature { name := draft.name, descriptor := draft.descriptor, access := draft.access }

theorem MethodDraft.StandsFor.signature_eq {symbolAt : UInt16 → Option Symbol}
    {draft : MethodDraft} {method : MethodDecl} (stands : draft.StandsFor symbolAt method) :
    method.signature = draft.signature := by
  rw [MethodDecl.signature, MethodDraft.signature, MethodDecl.signature, stands.name,
    stands.descriptor]

/-- Whether a step gives a part of the class; the others reserve slots. -/
def ClassStep.isPart : ClassStep → Bool
  | reserveMethod _ | reserveInterfaceMethod _ | reserveLong _ => false
  | _ => true

/-- What only parts give does not depend on the reservations. -/
theorem ClassStep.filterMap_eq_of_filter_isPart_eq {α : Type} {value? : ClassStep → Option α}
    (part : ∀ step, step.isPart = false → value? step = none) {first second : List ClassStep}
    (alike : first.filter isPart = second.filter isPart) :
    first.filterMap value? = second.filterMap value? := by
  have dropped (steps : List ClassStep) :
      (steps.filter isPart).filterMap value? = steps.filterMap value? := by
    rw [List.filterMap_filter]
    congr 1
    funext step
    cases kept : step.isPart with
    | false => simp [part step kept]
    | true => rfl
  rw [← dropped first, alike, dropped second]

theorem ClassStep.filterMap_annotate?_eq {first second : List ClassStep}
    (alike : first.filter isPart = second.filter isPart) :
    first.filterMap annotate? = second.filterMap annotate? :=
  filterMap_eq_of_filter_isPart_eq (by rintro (_ | _) <;> simp [isPart, annotate?]) alike

theorem ClassStep.filterMap_method?_eq {first second : List ClassStep}
    (alike : first.filter isPart = second.filter isPart) :
    first.filterMap method? = second.filterMap method? :=
  filterMap_eq_of_filter_isPart_eq (by rintro (_ | _) <;> simp [isPart, method?]) alike

theorem ClassDraft.isPlain_dotted {kind : TypeKind} {name : String} {steps : List ClassStep}
    (plain : ∀ draft ∈ steps.filterMap ClassStep.method?, draft.IsPlain) :
    ∀ draft ∈ (ofSteps kind name steps).dotted.methods, draft.IsPlain := by
  intro draft member
  rcases List.mem_map.1 member with ⟨spelled, listed, rfl⟩
  rw [methods_ofSteps] at listed
  exact plain spelled listed

end ClassFile

/-! ## Usages of a draft -/

/-- Functions that agree on related members have the same values along related lists. -/
theorem map_eq_map_of_forall₂ {α β γ : Type} {related : α → β → Prop} {f : α → γ} {g : β → γ}
    {xs : List α} {ys : List β} (alike : List.Forall₂ related xs ys)
    (agree : ∀ x y, related x y → f x = g y) : xs.map f = ys.map g := by
  induction alike with
  | nil => rfl
  | cons head _ ih => rw [List.map_cons, List.map_cons, agree _ _ head, ih]

namespace Usage

/-- The usage by a drafted call, if it leads to a tracked method. -/
def ofCall? (tracked : TrackedSurfaces) (unit method : String) (call : DraftedCall) : Option Usage :=
  (tracked.targetOf? call.ref.dotted).map fun target =>
    ⟨target, ⟨unit, method, call.line.map UInt16.toNat⟩⟩

/-- The usages of a drafted method. -/
def ofMethodDraft (tracked : TrackedSurfaces) (unit : String) (draft : MethodDraft) : List Usage :=
  match draft.code with
  | none => []
  | some code =>
      let site (distance : Nat) : CallSite :=
        ⟨unit, draft.signature, lineBefore distance (code.lineFor 0)⟩
      code.calls.filterMap (ofCall? tracked unit draft.signature) ++
        (ofAnnotations tracked (site 2) draft.annotations ++
          draft.parameterAnnotations.flatMap (ofAnnotations tracked (site 1)))

/-- The usages of a drafted class. -/
def ofDraft (tracked : TrackedSurfaces) (draft : ClassDraft) : List Usage :=
  ofAnnotations tracked ⟨draft.name, classMember, none⟩ draft.annotations ++
    draft.methods.flatMap (ofMethodDraft tracked draft.name)

/-- The usage by an instruction, if it is a call of a tracked method. -/
def ofInstruction? (index : SymbolIndex) (unit method : String) (body : CodeBody)
    (instruction : Instruction) : Option Usage :=
  (instruction.invokedSlot?.bind index.get?).map fun target =>
    ⟨target, ⟨unit, method, body.lineFor instruction.offset⟩⟩

variable {tracked : TrackedSurfaces} {unit : ClassUnit}

/-- Only the calls of a body are looked at. -/
theorem ofCode_eq_filterMap_filter {index : SymbolIndex} {name method : String} {body : CodeBody} :
    ofCode index name method body =
      (body.instructions.instructions.filter fun instruction =>
        instruction.invokedSlot?.isSome).filterMap (ofInstruction? index name method body) := by
  rw [ofCode, List.filterMap_filter]
  congr 1
  funext instruction
  cases invokes : instruction.invokedSlot? with
  | none => rfl
  | some slot => simp [ofInstruction?, invokes, Option.map_eq_bind]

theorem targetOfSymbol?_symbol (kind : InvokeKind) (ref : ClassFile.MemberRef) :
    SymbolIndex.targetOfSymbol? tracked (kind.symbol ref) = tracked.targetOf? ref := by
  cases kind <;> rfl

/-- The usage by an instruction that makes a drafted call is that by the call, whatever slot it goes
through. -/
theorem ofInstruction?_of_madeBy {name method : String} {body : CodeBody} {call : DraftedCall}
    {instruction : Instruction} (made : call.MadeBy unit.symbol? body instruction) :
    ofInstruction? (.ofUnit tracked unit) name method body instruction =
      ofCall? tracked name method call := by
  rcases made with ⟨⟨slot, invokes, means, _⟩, line⟩
  rw [ofInstruction?, Instruction.invokedSlot?, invokes, Option.bind_some, SymbolIndex.get?_ofUnit,
    means, Option.bind_some, targetOfSymbol?_symbol, line, ofCall?]

/-- A body that makes drafted calls has the usages by them. -/
theorem ofCode_of_makes {name method : String} {calls : List DraftedCall} {body : CodeBody}
    (makes : body.Makes unit.symbol? calls) :
    ofCode (.ofUnit tracked unit) name method body =
      calls.filterMap (ofCall? tracked name method) := by
  let calling := body.instructions.instructions.filter fun instruction =>
    instruction.invokedSlot?.isSome
  calc ofCode (.ofUnit tracked unit) name method body
      = calling.filterMap (ofInstruction? (.ofUnit tracked unit) name method body) :=
        ofCode_eq_filterMap_filter
    _ = (calling.map (ofInstruction? (.ofUnit tracked unit) name method body)).filterMap id := by
        rw [List.filterMap_map]
        rfl
    _ = (calls.map (ofCall? tracked name method)).filterMap id := by
        exact congrArg _ (map_eq_map_of_forall₂ makes.calls
          fun _ _ made => (ofInstruction?_of_madeBy made).symm).symm
    _ = calls.filterMap (ofCall? tracked name method) := by
        rw [List.filterMap_map]
        rfl

/-- A method that a plain draft stands for has the usages of the draft. -/
theorem ofMethod_of_standsFor {name : String} {draft : MethodDraft} {method : MethodDecl}
    (stands : draft.StandsFor unit.symbol? method) (fits : draft.Fits) (plain : draft.IsPlain) :
    ofMethod tracked (.ofUnit tracked unit) name method = ofMethodDraft tracked name draft := by
  have body : Option.Rel _ draft.code method.body := stands.body
  rw [ofMethod, ofMethodDraft]
  generalize coded : draft.code = drafted, method.body = read at body ⊢
  cases body with
  | none => rfl
  | some stands' =>
      have codeFits := fits.code _ coded
      have makes := stands'.makes codeFits (plain _ coded)
      simp only [ofMethodAnnotations, CodeBody.firstLine, ofCode_of_makes makes,
        stands'.lineFor_eq codeFits, stands.signature_eq, stands.annotations,
        stands.parameterAnnotations]

end Usage

/-- Plain code is decoded to its end, so there is nothing to log. -/
theorem ScanEvent.ofMethod?_of_standsFor {symbolAt : UInt16 → Option Symbol} {name : String}
    {draft : MethodDraft} {method : MethodDecl} (stands : draft.StandsFor symbolAt method)
    (fits : draft.Fits) (plain : draft.IsPlain) : ofMethod? name method = none := by
  have body : Option.Rel _ draft.code method.body := stands.body
  rw [ofMethod?]
  generalize coded : draft.code = drafted, method.body = read at body ⊢
  cases body with
  | none => rfl
  | some stands' =>
      have makes := stands'.makes (fits.code _ coded) (plain _ coded)
      simp [makes.decoded]

namespace UnitScan

variable {tracked : TrackedSurfaces} {unit : ClassUnit}

/-- Whether a class file is looked at makes no difference to its usages. -/
theorem usages_eq_ofIndexed :
    (ofUnit tracked unit).usages = Usage.ofIndexed tracked (.ofUnit tracked unit) unit := by
  have members := @mem_usages_iff tracked unit
  simp only [ofUnit] at members ⊢
  split
  · next skipped =>
      rw [if_pos skipped] at members
      symm
      rw [List.eq_nil_iff_forall_not_mem]
      rintro ⟨target, site⟩ used
      cases members.2 (Usage.mem_ofIndexed_iff.1 used)
  · rfl

/-- The scan of a class file whose code is plain is read off its draft. -/
theorem ofUnit_of_standsFor {draft : ClassDraft} (stands : draft.StandsFor unit)
    (fits : draft.Fits) (plain : ∀ method ∈ draft.methods, method.IsPlain) :
    ofUnit tracked unit = ⟨Usage.ofDraft tracked draft, []⟩ := by
  have methods : List.Forall₂ (fun method decl =>
      (method.Fits ∧ method.IsPlain) ∧ method.StandsFor unit.symbol? decl)
        draft.methods unit.methods :=
    (List.forall₂_and_left _ _).2 ⟨fun method member =>
      ⟨fits.methods method member, plain method member⟩, stands.methods⟩
  have usages_eq : (ofUnit tracked unit).usages = Usage.ofDraft tracked draft := by
    rw [usages_eq_ofIndexed, Usage.ofIndexed, Usage.ofDraft, stands.name, stands.annotations,
      List.flatMap_def, List.flatMap_def]
    congr 2
    exact (map_eq_map_of_forall₂ methods fun _ _ alike =>
      (Usage.ofMethod_of_standsFor alike.2 alike.1.1 alike.1.2).symm).symm
  have nothing : unit.methods.map (ScanEvent.ofMethod? unit.name) =
      draft.methods.map fun _ => none :=
    (map_eq_map_of_forall₂ methods fun _ _ alike =>
      (ScanEvent.ofMethod?_of_standsFor alike.2 alike.1.1 alike.1.2).symm).symm
  have unlogged : unit.methods.filterMap (ScanEvent.ofMethod? unit.name) = [] := by
    rw [List.filterMap_eq_nil_iff]
    intro decl member
    have listed := List.mem_map_of_mem (f := ScanEvent.ofMethod? unit.name) member
    rw [nothing, List.mem_map] at listed
    rcases listed with ⟨_, _, answer⟩
    exact answer.symm
  have events_eq : (ofUnit tracked unit).events = [] := by
    rw [ofUnit]
    split
    · rfl
    · exact unlogged
  calc ofUnit tracked unit
      = ⟨(ofUnit tracked unit).usages, (ofUnit tracked unit).events⟩ := rfl
    _ = ⟨Usage.ofDraft tracked draft, []⟩ := by rw [usages_eq, events_eq]

end UnitScan

/-! ## Reserved slots -/

namespace Usage

/-- Steps with the same parts draft classes with the same usages. -/
theorem ofDraft_eq_of_filter_isPart_eq {kind : TypeKind} {name : String}
    {first second : List ClassStep}
    (alike : first.filter ClassStep.isPart = second.filter ClassStep.isPart)
    (tracked : TrackedSurfaces) :
    ofDraft tracked (ClassDraft.ofSteps kind name first).dotted =
      ofDraft tracked (ClassDraft.ofSteps kind name second).dotted := by
  have firstCollected := ClassDraft.applyAll_collects (ClassDraft.ofKind kind name) first
  have secondCollected := ClassDraft.applyAll_collects (ClassDraft.ofKind kind name) second
  have annotations := ClassStep.filterMap_annotate?_eq alike
  have methods := ClassStep.filterMap_method?_eq alike
  simp only [ofDraft, ClassDraft.dotted, ClassDraft.methods_ofSteps, methods]
  simp only [ClassDraft.ofSteps, firstCollected.name, firstCollected.annotations,
    secondCollected.name, secondCollected.annotations, annotations]

end Usage

/-- A scan does not depend on the layout of the slots: two class files that are drafted from the same
parts, whose code is plain, and from any reservations of method references and numbers both open, and
for all tracked surfaces and every report they record the same call sites and log the same events. -/
theorem scan_eq_of_filter_isPart_eq (kind : TypeKind) (name : String)
    (first second : List ClassStep)
    (alike : first.filter ClassStep.isPart = second.filter ClassStep.isPart)
    (firstFits : (ClassDraft.ofSteps kind name first).dotted.Fits)
    (secondFits : (ClassDraft.ofSteps kind name second).dotted.Fits)
    (plain : ∀ draft ∈ first.filterMap ClassStep.method?, draft.IsPlain) :
    ∃ firstUnit secondUnit,
      ClassUnit.ofBytes (ClassDraft.ofSteps kind name first).assemble = .ok firstUnit ∧
        ClassUnit.ofBytes (ClassDraft.ofSteps kind name second).assemble = .ok secondUnit ∧
        ∀ (tracked : TrackedSurfaces) (report : CoverageReport),
          report.scanUnit tracked firstUnit = report.scanUnit tracked secondUnit ∧
            (UnitScan.ofUnit tracked firstUnit).events =
              (UnitScan.ofUnit tracked secondUnit).events := by
  rcases ClassDraft.exists_ofBytes_assemble_ofSteps firstFits with
    ⟨firstUnit, firstOpened, firstStands⟩
  rcases ClassDraft.exists_ofBytes_assemble_ofSteps secondFits with
    ⟨secondUnit, secondOpened, secondStands⟩
  have plainSecond : ∀ draft ∈ second.filterMap ClassStep.method?, draft.IsPlain := by
    rwa [← ClassStep.filterMap_method?_eq alike]
  refine ⟨firstUnit, secondUnit, firstOpened, secondOpened, ?_⟩
  intro tracked report
  have scans_eq : UnitScan.ofUnit tracked firstUnit = UnitScan.ofUnit tracked secondUnit := by
    rw [UnitScan.ofUnit_of_standsFor firstStands firstFits (ClassDraft.isPlain_dotted plain),
      UnitScan.ofUnit_of_standsFor secondStands secondFits (ClassDraft.isPlain_dotted plainSecond),
      Usage.ofDraft_eq_of_filter_isPart_eq alike]
  rw [CoverageReport.scanUnit, CoverageReport.scanUnit, scans_eq]
  exact ⟨rfl, rfl⟩

/-- A class with a call in its code. -/
def callingParts : List ClassStep :=
  [.annotate ⟨"e.F", ["x"]⟩,
    .method {
      name := "run", descriptor := "()V"
      code := some ⟨[.line 7, .invoke .static ⟨"c.D", "m", "()V"⟩, CodeStep.returnVoid], true⟩ }]

/-- The class with reservations between its parts: a number, the method that is called and others that
nothing calls. -/
def reservingParts : List ClassStep :=
  [.reserveLong 5, .annotate ⟨"e.F", ["x"]⟩, .reserveInterfaceMethod ⟨"g.H", "m", "()V"⟩,
    .method {
      name := "run", descriptor := "()V"
      code := some ⟨[.line 7, .invoke .static ⟨"c.D", "m", "()V"⟩, CodeStep.returnVoid], true⟩ },
    .reserveMethod ⟨"c.D", "n", "()V"⟩, .reserveMethod ⟨"c.D", "m", "()V"⟩]

theorem scan_eq_reservingParts :
    callingParts.filter ClassStep.isPart = reservingParts.filter ClassStep.isPart ∧
      (ClassDraft.ofSteps .classType "a.B" callingParts).assemble ≠
        (ClassDraft.ofSteps .classType "a.B" reservingParts).assemble ∧
      ∃ firstUnit secondUnit,
        ClassUnit.ofBytes (ClassDraft.ofSteps .classType "a.B" callingParts).assemble =
            .ok firstUnit ∧
          ClassUnit.ofBytes (ClassDraft.ofSteps .classType "a.B" reservingParts).assemble =
            .ok secondUnit ∧
          ∀ (tracked : TrackedSurfaces) (report : CoverageReport),
            report.scanUnit tracked firstUnit = report.scanUnit tracked secondUnit ∧
              (UnitScan.ofUnit tracked firstUnit).events =
                (UnitScan.ofUnit tracked secondUnit).events :=
  ⟨rfl, by decide +kernel,
    scan_eq_of_filter_isPart_eq .classType "a.B" callingParts reservingParts rfl
      (by decide +kernel) (by decide +kernel) (by decide +kernel)⟩

end ApiCoverage
