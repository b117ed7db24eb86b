import ApiCoverage.Proofs.ClassFile.PoolDraft

/-!
# Drafts within the format, and the units that they stand for

The format stores counts and lengths in one, two or four bytes, and a draft fits it when its own
counts and lengths can be stored so. What a draft fills into a class file is then determined up to the
numbers of the constant pool slots, which appear in the code alone: a call names the slot of its
method. A unit that a draft stands for has the parts of the draft, and its code has the bytes of the
draft's steps, where the slot of every call means the method called.
-/

namespace ApiCoverage.ClassFile

namespace MemberRef

/-- A reference with the dotted form of its owner's name, which is how it is read. -/
def dotted (ref : MemberRef) : MemberRef :=
  { ref with owner := Pool.dottedName ref.owner }

end MemberRef

namespace AnnotationUse

/-- The number of bytes of a counted list of annotations. -/
def listSize (uses : List AnnotationUse) : Nat :=
  2 + sumBy (fun use => 4 + 5 * use.members.length) uses

/-- The counts of a list of annotations are stored in two bytes, and its types are dotted names. -/
@[mk_iff]
structure ListFits (uses : List AnnotationUse) : Prop where
  count : uses.length ≤ 65535
  members : ∀ use ∈ uses, use.members.length ≤ 65535
  unslashed : ∀ use ∈ uses, '/' ∉ use.typeName.toList

instance : DecidablePred ListFits := fun uses => decidable_of_iff' _ (listFits_iff uses)

end AnnotationUse

namespace InvokeKind

/-- What a call of this kind calls: interface methods are constants of their own. -/
def symbol : InvokeKind → MemberRef → Symbol
  | interface => .interfaceMethod
  | _ => .method

/-- The bytes of a call after the slot. -/
def trailer : InvokeKind → Bytes
  | interface => [1, 0]
  | _ => []

end InvokeKind

namespace CodeStep

/-- The number of bytes of a step. -/
def size : CodeStep → Nat
  | line _ => 0
  | invoke kind _ => 3 + kind.trailer.length
  | raw bytes => bytes.length

/-- The line markers of steps with the code offsets at which they stand. -/
def markers (offset : Nat) : List CodeStep → List LineEntry
  | [] => []
  | line number :: rest => ⟨UInt16.ofNat offset, number⟩ :: markers offset rest
  | step :: rest => markers (offset + step.size) rest

/-- Bytes say what a step says, where `symbolAt` tells what slots mean. -/
def Denotes (symbolAt : UInt16 → Option Symbol) : CodeStep → Bytes → Prop
  | line _, bytes => bytes = []
  | raw given, bytes => bytes = given
  | invoke kind ref, bytes => ∃ slot, symbolAt slot = some (kind.symbol ref.dotted) ∧
      bytes = kind.opcode :: Bytes.ofUInt16 slot ++ kind.trailer

end CodeStep

namespace CodeDraft

/-- The code and its line markers can be stored. -/
@[mk_iff]
structure Fits (draft : CodeDraft) : Prop where
  code : sumBy CodeStep.size draft.steps ≤ 65535
  markers : (CodeStep.markers 0 draft.steps).length ≤ 65535

instance : DecidablePred Fits := fun draft => decidable_of_iff' _ (fits_iff draft)

/-- A body has the bytes of the steps in order, and their line markers where they are written. -/
def StandsFor (symbolAt : UInt16 → Option Symbol) (draft : CodeDraft) (body : CodeBody) : Prop :=
  ∃ pieces, List.Forall₂ (CodeStep.Denotes symbolAt) draft.steps pieces ∧
    body = .ofTable pieces.flatten
      (if draft.lineTable then some (CodeStep.markers 0 draft.steps) else none)

end CodeDraft

namespace MethodDraft

/-- The parts of a method can be stored. -/
@[mk_iff]
structure Fits (draft : MethodDraft) : Prop where
  code : ∀ code ∈ draft.code, code.Fits
  annotations : AnnotationUse.ListFits draft.annotations
  annotationBytes : AnnotationUse.listSize draft.annotations < UInt32.size
  parameters : draft.parameterAnnotations.length ≤ 255
  parameterAnnotations : ∀ uses ∈ draft.parameterAnnotations, AnnotationUse.ListFits uses
  parameterBytes : 1 + sumBy AnnotationUse.listSize draft.parameterAnnotations < UInt32.size

instance : DecidablePred Fits := fun draft => decidable_of_iff' _ (fits_iff draft)

/-- A method has the parts of the draft; it is deprecated by its attribute or by an annotation. -/
structure StandsFor (symbolAt : UInt16 → Option Symbol) (draft : MethodDraft) (method : MethodDecl) :
    Prop where
  name : method.name = draft.name
  descriptor : method.descriptor = draft.descriptor
  access : method.access = draft.access
  deprecated : method.deprecated =
    (draft.deprecated || draft.annotations.any AnnotationUse.isDeprecation)
  annotations : method.annotations = draft.annotations
  parameterAnnotations : method.parameterAnnotations = draft.parameterAnnotations
  body : Option.Rel (CodeDraft.StandsFor symbolAt) draft.code method.body

end MethodDraft

namespace ClassStep

/-- The flags that a step gives. -/
def access? : ClassStep → Option Access
  | access flags => some flags
  | _ => none

/-- The version that a step gives. -/
def version? : ClassStep → Option UInt16
  | version major => some major
  | _ => none

/-- The super class that a step gives. -/
def superclass? : ClassStep → Option String
  | superclass name => some name
  | _ => none

/-- The interface that a step gives. -/
def implements? : ClassStep → Option String
  | implements name => some name
  | _ => none

/-- The source file that a step gives. -/
def sourceFile? : ClassStep → Option String
  | sourceFile name => some name
  | _ => none

/-- The annotation that a step gives. -/
def annotate? : ClassStep → Option AnnotationUse
  | annotate use => some use
  | _ => none

/-- The method that a step gives. -/
def method? : ClassStep → Option MethodDraft
  | method draft => some draft
  | _ => none

/-- What the last of the steps that give something gives. -/
def last? {α : Type} (value? : ClassStep → Option α) (steps : List ClassStep) : Option α :=
  steps.reverse.findSome? value?

theorem last?_cons {α : Type} (value? : ClassStep → Option α) (step : ClassStep)
    (steps : List ClassStep) :
    last? value? (step :: steps) = (last? value? steps).or (value? step) := by
  rw [last?, List.reverse_cons, List.findSome?_append, List.findSome?_singleton, last?]

end ClassStep

namespace ClassDraft

/-- The draft that steps make of a bare type. -/
def ofSteps (kind : TypeKind) (name : String) (steps : List ClassStep) : ClassDraft :=
  ((ofKind kind name).applyAll steps).1

/-- The pool in which the class file of the draft is written. -/
def finalPool (draft : ClassDraft) : PoolDraft :=
  (draft.encodeBody draft.pool).2

/-- The parts of a class can be stored in a version that can be read, and its types are dotted
names. -/
@[mk_iff]
structure Fits (draft : ClassDraft) : Prop where
  oldest : oldestVersion ≤ draft.majorVersion
  newest : draft.majorVersion ≤ newestVersion
  name : '/' ∉ draft.name.toList
  superName : ∀ name ∈ draft.superName, '/' ∉ name.toList
  interfaces : ∀ name ∈ draft.interfaces, '/' ∉ name.toList
  interfaceCount : draft.interfaces.length ≤ 65535
  methods : ∀ method ∈ draft.methods, method.Fits
  methodCount : draft.methods.length ≤ 65535
  annotations : AnnotationUse.ListFits draft.annotations
  annotationBytes : AnnotationUse.listSize draft.annotations < UInt32.size
  pool : draft.finalPool.Fits

instance : DecidablePred Fits := fun draft => decidable_of_iff' _ (fits_iff draft)

/-- A draft has the parts of an earlier one and those that steps give: of single parts the last,
of interfaces, annotations and methods all in order. -/
structure Collects (start : ClassDraft) (steps : List ClassStep) (draft : ClassDraft) : Prop where
  name : draft.name = start.name
  access : draft.access = (ClassStep.last? ClassStep.access? steps).getD start.access
  majorVersion : draft.majorVersion =
    (ClassStep.last? ClassStep.version? steps).getD start.majorVersion
  superName : draft.superName = (ClassStep.last? ClassStep.superclass? steps).or start.superName
  interfaces : draft.interfaces = start.interfaces ++ steps.filterMap ClassStep.implements?
  sourceFile : draft.sourceFile = (ClassStep.last? ClassStep.sourceFile? steps).or start.sourceFile
  annotations : draft.annotations = start.annotations ++ steps.filterMap ClassStep.annotate?
  methods : draft.methods = start.methods ++ steps.filterMap ClassStep.method?

/-- A reservation changes nothing but the pool. -/
@[simp]
theorem reserve_fst (draft : ClassDraft) (drafting : Drafting UInt16) :
    (draft.reserve drafting).1 = { draft with pool := (drafting draft.pool).2 } :=
  rfl

/-- Drafting collects the parts that the steps give. -/
theorem applyAll_collects (start : ClassDraft) (steps : List ClassStep) :
    start.Collects steps (start.applyAll steps).1 := by
  induction steps generalizing start with
  | nil => constructor <;> simp [applyAll, ClassStep.last?]
  | cons step rest ih =>
      have later := ih (start.apply step).1
      have run : (start.applyAll (step :: rest)).1 = ((start.apply step).1.applyAll rest).1 := rfl
      rw [run]
      constructor
      · rw [later.name]
        cases step <;> rfl
      · rw [later.access, ClassStep.last?_cons, Option.getD_or]
        cases step <;> rfl
      · rw [later.majorVersion, ClassStep.last?_cons, Option.getD_or]
        cases step <;> rfl
      · rw [later.superName, ClassStep.last?_cons, Option.or_assoc]
        cases step <;> rfl
      · have given : (start.apply step).1.interfaces =
            start.interfaces ++ step.implements?.toList := by
          cases step <;> simp [apply, ClassStep.implements?]
        rw [later.interfaces, given, List.append_assoc]
        cases step <;> rfl
      · rw [later.sourceFile, ClassStep.last?_cons, Option.or_assoc]
        cases step <;> rfl
      · have given : (start.apply step).1.annotations =
            start.annotations ++ step.annotate?.toList := by
          cases step <;> simp [apply, ClassStep.annotate?]
        rw [later.annotations, given, List.append_assoc]
        cases step <;> rfl
      · have given : (start.apply step).1.methods = start.methods ++ step.method?.toList := by
          cases step <;> simp [apply, ClassStep.method?]
        rw [later.methods, given, List.append_assoc]
        cases step <;> rfl

/-- A unit has the parts of the draft. -/
structure StandsFor (draft : ClassDraft) (unit : ClassUnit) : Prop where
  minorVersion : unit.minorVersion = 0
  majorVersion : unit.majorVersion = draft.majorVersion
  access : unit.access = draft.access
  name : unit.name = draft.name
  superName : unit.superName = draft.superName
  interfaces : unit.interfaces = draft.interfaces
  sourceFile : unit.sourceFile = draft.sourceFile
  annotations : unit.annotations = draft.annotations
  methods : List.Forall₂ (MethodDraft.StandsFor unit.symbol?) draft.methods unit.methods

end ClassDraft

end ApiCoverage.ClassFile
