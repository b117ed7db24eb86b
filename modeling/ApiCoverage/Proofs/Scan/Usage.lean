import ApiCoverage.Proofs.Surface.Tracked
import ApiCoverage.Scan.Usage

/-!
# The usages of a class file, declaratively

A class file uses a tracked method in two ways: its code calls the method, or an annotation counts
for it. Both are relations between the method and a place, without an index and without an order.
The usages that a scan lists are exactly the pairs in one of the relations. This holds as well where
the scan does not look at the class file, because the relations are then empty.
-/

namespace ApiCoverage

open ClassFile (AnnotationUse ClassUnit CodeBody Instruction MemberRef MethodDecl Symbol)

/-- A decoded instruction of a method with a body calls a method reference that leads to a tracked
method. -/
inductive Calls (tracked : TrackedSurfaces) (unit : ClassUnit) : TrackedMethod → CallSite → Prop where
  | intro {method : MethodDecl} {body : CodeBody} {instruction : Instruction} {slot : UInt16}
      {ref : MemberRef} {surface : String}
      (declared : method ∈ unit.methods)
      (code : method.body = some body)
      (decoded : instruction ∈ body.instructions.instructions)
      (invokes : instruction.invokedSlot? = some slot)
      (refers : unit.symbol? slot = some (.method ref) ∨
        unit.symbol? slot = some (.interfaceMethod ref))
      (leads : tracked.declarer? ref.owner ⟨ref.name, ref.descriptor⟩ = some surface) :
      Calls tracked unit ⟨surface, ⟨ref.name, ref.descriptor⟩⟩
        ⟨unit.name, method.signature, body.lineFor instruction.offset⟩

/-- An annotation of the class, of a method with a body or of a parameter of such a method counts
for a tracked method. -/
inductive Annotates (tracked : TrackedSurfaces) (unit : ClassUnit) (target : TrackedMethod) :
    CallSite → Prop where
  | onClass {use : AnnotationUse}
      (given : use ∈ unit.annotations)
      (counts : target ∈ Usage.annotationTargets tracked use) :
      Annotates tracked unit target ⟨unit.name, Usage.classMember, none⟩
  | onMethod {method : MethodDecl} {body : CodeBody} {use : AnnotationUse}
      (declared : method ∈ unit.methods)
      (code : method.body = some body)
      (given : use ∈ method.annotations)
      (counts : target ∈ Usage.annotationTargets tracked use) :
      Annotates tracked unit target
        ⟨unit.name, method.signature, Usage.lineBefore 2 body.firstLine⟩
  | onParameter {method : MethodDecl} {body : CodeBody} {uses : List AnnotationUse}
      {use : AnnotationUse}
      (declared : method ∈ unit.methods)
      (code : method.body = some body)
      (parameter : uses ∈ method.parameterAnnotations)
      (given : use ∈ uses)
      (counts : target ∈ Usage.annotationTargets tracked use) :
      Annotates tracked unit target
        ⟨unit.name, method.signature, Usage.lineBefore 1 body.firstLine⟩

namespace TrackedSurfaces

variable {tracked : TrackedSurfaces}

theorem targetOf?_eq_some_iff {ref : MemberRef} {target : TrackedMethod} :
    tracked.targetOf? ref = some target ↔
      ∃ surface, tracked.declarer? ref.owner ⟨ref.name, ref.descriptor⟩ = some surface ∧
        ⟨surface, ⟨ref.name, ref.descriptor⟩⟩ = target := by
  simp [targetOf?]

/-- Without annotation types, every surface is of another kind. -/
theorem isAnnotationType_eq_false (lacks : tracked.hasAnnotationTypes = false) {name : String}
    {surface : TrackedSurface} (found : tracked.get? name = some surface) :
    surface.isAnnotationType = false := by
  have member := get?_eq_some_iff.1 found
  simp only [hasAnnotationTypes, OrderedMap.values, List.any_map, List.any_eq_false] at lacks
  simpa using lacks _ member

end TrackedSurfaces

namespace SymbolIndex

variable {tracked : TrackedSurfaces} {unit : ClassUnit}

/-- The index answers for a slot what the symbol in the slot leads to. -/
theorem get?_ofUnit (slot : UInt16) :
    (ofUnit tracked unit).get? slot =
      (unit.symbol? slot).bind (targetOfSymbol? tracked) := by
  simp only [get?, ofUnit, ClassUnit.symbol?, Array.getElem?_map]
  cases unit.symbols[slot.toNat]? with
  | none => rfl
  | some symbol => rfl

/-- The index has a method in a slot if the symbol there is a reference of either kind that leads to
the method. -/
theorem get?_ofUnit_eq_some_iff {slot : UInt16} {target : TrackedMethod} :
    (ofUnit tracked unit).get? slot = some target ↔
      ∃ ref, (unit.symbol? slot = some (.method ref) ∨
          unit.symbol? slot = some (.interfaceMethod ref)) ∧
        tracked.targetOf? ref = some target := by
  rw [get?_ofUnit, Option.bind_eq_some_iff]
  constructor
  · rintro ⟨symbol, there, leads⟩
    cases symbol with
    | method ref => exact ⟨ref, .inl there, leads⟩
    | interfaceMethod ref => exact ⟨ref, .inr there, leads⟩
    | other => cases leads
  · rintro ⟨ref, there | there, leads⟩
    · exact ⟨_, there, leads⟩
    · exact ⟨_, there, leads⟩

/-- An empty index answers for no slot. -/
theorem get?_eq_none_of_isEmpty {index : SymbolIndex} (empty : index.isEmpty = true)
    (slot : UInt16) : index.get? slot = none := by
  simp only [isEmpty, List.all_eq_true] at empty
  unfold get?
  cases held : index.slots[slot.toNat]? with
  | none => rfl
  | some answer =>
      have member : answer ∈ index.slots.toList :=
        Array.mem_toList_iff.2 (Array.mem_of_getElem? held)
      simpa using empty answer member

end SymbolIndex

namespace Usage

variable {tracked : TrackedSurfaces} {unit : ClassUnit}

/-- The calls in a body are those of its decoded instructions that the index knows. -/
theorem mem_ofCode_iff {index : SymbolIndex} {name method : String} {body : CodeBody}
    {target : TrackedMethod} {site : CallSite} :
    ⟨target, site⟩ ∈ ofCode index name method body ↔
      ∃ instruction ∈ body.instructions.instructions, ∃ slot,
        instruction.invokedSlot? = some slot ∧ index.get? slot = some target ∧
          site = ⟨name, method, body.lineFor instruction.offset⟩ := by
  simp only [ofCode, List.mem_filterMap, Option.bind_eq_bind, Option.bind_eq_some_iff,
    Option.pure_def, Option.some.injEq, Usage.mk.injEq]
  constructor
  · rintro ⟨instruction, decoded, found, ⟨slot, invokes, answer⟩, rfl, rfl⟩
    exact ⟨instruction, decoded, slot, invokes, answer, rfl⟩
  · rintro ⟨instruction, decoded, slot, invokes, answer, rfl⟩
    exact ⟨instruction, decoded, target, ⟨slot, invokes, answer⟩, rfl, rfl⟩

theorem mem_ofAnnotations_iff {place site : CallSite} {uses : List AnnotationUse}
    {target : TrackedMethod} :
    ⟨target, site⟩ ∈ ofAnnotations tracked place uses ↔
      site = place ∧ ∃ use ∈ uses, target ∈ annotationTargets tracked use := by
  simp only [ofAnnotations, List.mem_map, List.mem_flatMap, Usage.mk.injEq]
  constructor
  · rintro ⟨found, counted, rfl, rfl⟩
    exact ⟨rfl, counted⟩
  · rintro ⟨rfl, counted⟩
    exact ⟨target, counted, rfl, rfl⟩

/-- An annotation counts for methods of its own type, which is an annotation type: for those whose
values it sets, or for the usage key where the type declares no methods. -/
theorem mem_annotationTargets_iff {use : AnnotationUse} {target : TrackedMethod} :
    target ∈ annotationTargets tracked use ↔
      ∃ surface, tracked.get? use.typeName = some surface ∧ surface.isAnnotationType = true ∧
        target.surface = use.typeName ∧
        if surface.hasMembers then
          target.key ∈ surface.methods.elements ∧ use.sets target.key.name = true
        else target.key = .usage := by
  unfold annotationTargets
  rcases target with ⟨name, key⟩
  cases tracked.get? use.typeName with
  | none => simp
  | some surface =>
      cases kind : surface.isAnnotationType with
      | false => simp [kind]
      | true =>
          simp only [Bool.not_true, Bool.false_eq_true, if_false, List.mem_map, Option.some.injEq,
            exists_eq_left', kind, true_and, TrackedMethod.mk.injEq]
          constructor
          · rintro ⟨found, counted, rfl, rfl⟩
            cases members : surface.hasMembers with
            | false => simpa [members] using counted
            | true => simpa [members] using counted
          · rintro ⟨rfl, counted⟩
            cases members : surface.hasMembers with
            | false => simpa [members, eq_comm] using counted
            | true => simpa [members] using counted

/-- A method with a body is used by its code, by its annotations and by those of its parameters. -/
theorem mem_ofMethod_iff {index : SymbolIndex} {name : String} {method : MethodDecl}
    {target : TrackedMethod} {site : CallSite} :
    ⟨target, site⟩ ∈ ofMethod tracked index name method ↔
      ∃ body, method.body = some body ∧
        (⟨target, site⟩ ∈ ofCode index name method.signature body ∨
          (site = ⟨name, method.signature, lineBefore 2 body.firstLine⟩ ∧
            ∃ use ∈ method.annotations, target ∈ annotationTargets tracked use) ∨
          (site = ⟨name, method.signature, lineBefore 1 body.firstLine⟩ ∧
            ∃ uses ∈ method.parameterAnnotations, ∃ use ∈ uses,
              target ∈ annotationTargets tracked use)) := by
  unfold ofMethod
  cases method.body with
  | none => simp
  | some body =>
      simp only [ofMethodAnnotations, List.mem_append, List.mem_flatMap, mem_ofAnnotations_iff,
        Option.some.injEq, exists_eq_left']
      constructor
      · rintro (called | annotated | ⟨uses, parameter, same, counted⟩)
        · exact .inl called
        · exact .inr (.inl annotated)
        · exact .inr (.inr ⟨same, uses, parameter, counted⟩)
      · rintro (called | annotated | ⟨same, uses, parameter, counted⟩)
        · exact .inl called
        · exact .inr (.inl annotated)
        · exact .inr (.inr ⟨uses, parameter, same, counted⟩)

/-- The usages of a class file, when it is looked at, are its calls and its annotations. -/
theorem mem_ofIndexed_iff {target : TrackedMethod} {site : CallSite} :
    ⟨target, site⟩ ∈ ofIndexed tracked (.ofUnit tracked unit) unit ↔
      Calls tracked unit target site ∨ Annotates tracked unit target site := by
  simp only [ofIndexed, List.mem_append, List.mem_flatMap, mem_ofAnnotations_iff,
    mem_ofMethod_iff, mem_ofCode_iff, SymbolIndex.get?_ofUnit_eq_some_iff,
    TrackedSurfaces.targetOf?_eq_some_iff]
  constructor
  · rintro (⟨rfl, use, given, counts⟩ | ⟨method, declared, body, code, used⟩)
    · exact .inr (.onClass given counts)
    · rcases used with called | ⟨rfl, use, given, counts⟩ |
        ⟨rfl, uses, parameter, use, given, counts⟩
      · rcases called with ⟨instruction, decoded, slot, invokes, ⟨ref, refers, leads⟩, rfl⟩
        rcases leads with ⟨surface, found, rfl⟩
        exact .inl (.intro declared code decoded invokes refers found)
      · exact .inr (.onMethod declared code given counts)
      · exact .inr (.onParameter declared code parameter given counts)
  · rintro (calls | annotates)
    · rcases calls with ⟨declared, code, decoded, invokes, refers, leads⟩
      exact .inr ⟨_, declared, _, code,
        .inl ⟨_, decoded, _, invokes, ⟨_, refers, _, leads, rfl⟩, rfl⟩⟩
    · cases annotates with
      | onClass given counts => exact .inl ⟨rfl, _, given, counts⟩
      | onMethod declared code given counts =>
          exact .inr ⟨_, declared, _, code, .inr (.inl ⟨rfl, _, given, counts⟩)⟩
      | onParameter declared code parameter given counts =>
          exact .inr ⟨_, declared, _, code, .inr (.inr ⟨rfl, _, parameter, _, given, counts⟩)⟩

end Usage

theorem Annotates.exists_counts {tracked : TrackedSurfaces} {unit : ClassUnit}
    {target : TrackedMethod} {site : CallSite} (annotates : Annotates tracked unit target site) :
    ∃ use, target ∈ Usage.annotationTargets tracked use := by
  cases annotates with
  | onClass given counts => exact ⟨_, counts⟩
  | onMethod declared code given counts => exact ⟨_, counts⟩
  | onParameter declared code parameter given counts => exact ⟨_, counts⟩

/-- An annotation counts only for methods of annotation types. -/
theorem Annotates.exists_annotationType {tracked : TrackedSurfaces} {unit : ClassUnit}
    {target : TrackedMethod} {site : CallSite} (annotates : Annotates tracked unit target site) :
    ∃ surface, tracked.get? target.surface = some surface ∧ surface.isAnnotationType = true := by
  rcases annotates.exists_counts with ⟨use, counts⟩
  rcases Usage.mem_annotationTargets_iff.1 counts with ⟨surface, found, kind, same, _⟩
  rw [same]
  exact ⟨surface, found, kind⟩

/-- A call needs a symbol that leads to a tracked method. -/
theorem Calls.exists_get? {tracked : TrackedSurfaces} {unit : ClassUnit} {target : TrackedMethod}
    {site : CallSite} (calls : Calls tracked unit target site) :
    ∃ slot, (SymbolIndex.ofUnit tracked unit).get? slot = some target := by
  rcases calls with ⟨_, _, _, _, refers, leads⟩
  exact ⟨_, SymbolIndex.get?_ofUnit_eq_some_iff.2
    ⟨_, refers, TrackedSurfaces.targetOf?_eq_some_iff.2 ⟨_, leads, rfl⟩⟩⟩

/-- The scan of a class file lists exactly its calls and its annotations. A class file that is not
looked at has neither. -/
theorem UnitScan.mem_usages_iff {tracked : TrackedSurfaces} {unit : ClassUnit}
    {target : TrackedMethod} {site : CallSite} :
    ⟨target, site⟩ ∈ (ofUnit tracked unit).usages ↔
      Calls tracked unit target site ∨ Annotates tracked unit target site := by
  simp only [ofUnit]
  split
  · next skipped =>
      rw [Bool.and_eq_true, Bool.not_eq_true'] at skipped
      rcases skipped with ⟨unreferenced, lacks⟩
      constructor
      · intro used
        cases used
      · rintro (calls | annotates)
        · rcases calls.exists_get? with ⟨slot, found⟩
          rw [SymbolIndex.get?_eq_none_of_isEmpty unreferenced] at found
          cases found
        · rcases annotates.exists_annotationType with ⟨surface, found, kind⟩
          rw [TrackedSurfaces.isAnnotationType_eq_false lacks found] at kind
          cases kind
  · exact Usage.mem_ofIndexed_iff

end ApiCoverage
