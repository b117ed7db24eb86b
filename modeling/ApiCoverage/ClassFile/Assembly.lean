import ApiCoverage.ClassFile.Unit
import ApiCoverage.Sum
import ApiCoverage.TypeKind

/-!
# Assembling class files

A class draft collects the parts of a class; assembling it gives the bytes of a class file. Equal
constants share a slot, which is handed out when a part first needs it, so the slots follow the
order in which the parts are written: references that are reserved while drafting come first.
Numbers that the format stores in one or two bytes are cut to that size.
-/

namespace ApiCoverage.ClassFile

/-- The constants of a pool in the making, in slot order. -/
structure PoolDraft where
  constants : List Constant

namespace PoolDraft

/-- The number of slots that constants take up. -/
def widths (constants : List Constant) : Nat :=
  sumBy Constant.width constants

/-- The first slot after the constants; slot 0 is never handed out. -/
def nextSlot (pool : PoolDraft) : Nat :=
  1 + widths pool.constants

/-- The slot of the first constant equal to a given one, where `slot` is that of the first
constant of the list. -/
def slotOf? (constant : Constant) (slot : Nat) : List Constant → Option Nat
  | [] => none
  | other :: rest =>
      if other = constant then some slot
      else slotOf? constant (slot + other.width) rest

/-- The bytes of the constants. -/
def encode (pool : PoolDraft) : Bytes :=
  pool.constants.flatMap Constant.encode

end PoolDraft

/-- A step that may add constants to a pool. -/
abbrev Drafting := StateM PoolDraft

namespace Drafting

/-- Adds a constant behind the others and gives its slot. -/
def append (constant : Constant) : Drafting UInt16 :=
  fun pool => (UInt16.ofNat pool.nextSlot, ⟨pool.constants ++ [constant]⟩)

/-- Gives the slot of a constant and adds it if the pool lacks it. -/
def intern (constant : Constant) : Drafting UInt16 :=
  fun pool =>
    match PoolDraft.slotOf? constant 1 pool.constants with
    | some slot => (UInt16.ofNat slot, pool)
    | none => append constant pool

/-- The slot of a text. -/
def utf8 (text : String) : Drafting UInt16 :=
  intern (.utf8 text)

/-- The slot of a class, by its dotted name. -/
def classReference (name : String) : Drafting UInt16 := do
  let text ← utf8 (String.ofList (Descriptor.slashed name.toList))
  intern (.classReference text)

/-- The slot of a name with a descriptor. -/
def nameAndType (name descriptor : String) : Drafting UInt16 := do
  let name ← utf8 name
  let descriptor ← utf8 descriptor
  intern (.nameAndType name descriptor)

/-- The slot of a method reference of the kind that `make` builds. -/
def member (make : UInt16 → UInt16 → Constant) (ref : MemberRef) : Drafting UInt16 := do
  let owner ← classReference ref.owner
  let nameAndType ← nameAndType ref.name ref.descriptor
  intern (make owner nameAndType)

/-- The slot of a class method. -/
def method (ref : MemberRef) : Drafting UInt16 :=
  member .methodReference ref

/-- The slot of an interface method. -/
def interfaceMethod (ref : MemberRef) : Drafting UInt16 :=
  member .interfaceMethodReference ref

/-- A two-byte count. -/
def count (size : Nat) : Bytes :=
  Bytes.ofUInt16 (UInt16.ofNat size)

/-- The bytes of an attribute list; a body is written before its name is looked up. -/
def attributes (list : List (String × Bytes)) : Drafting Bytes := do
  let encoded ← list.mapM fun (name, body) => do
    let index ← utf8 name
    return Bytes.ofUInt16 index ++ Bytes.ofUInt32 (UInt32.ofNat body.length) ++ body
  return count list.length ++ encoded.flatten

/-- The bytes of an element whose value is the text of its own name. -/
def element (name : String) : Drafting Bytes := do
  let index ← utf8 name
  return Bytes.ofUInt16 index ++ UInt8.ofNat 's'.toNat :: Bytes.ofUInt16 index

/-- The bytes of one use of an annotation type. -/
def annotationUse (use : AnnotationUse) : Drafting Bytes := do
  let type ← utf8 (String.ofList (Descriptor.encodeType (.object use.typeName)))
  let elements ← use.members.mapM element
  return Bytes.ofUInt16 type ++ count use.members.length ++ elements.flatten

/-- The bytes of a counted list of annotations. -/
def annotations (uses : List AnnotationUse) : Drafting Bytes := do
  let encoded ← uses.mapM annotationUse
  return count uses.length ++ encoded.flatten

/-- The attribute with the annotations of a class or a method. -/
def annotationAttribute : List AnnotationUse → Drafting (List (String × Bytes))
  | [] => return []
  | uses => return [("RuntimeVisibleAnnotations", ← annotations uses)]

end Drafting

/-- A piece of straight-line code. -/
inductive CodeStep where
  /-- The code from here on stems from a source line. -/
  | line (number : UInt16)
  | invoke (kind : InvokeKind) (ref : MemberRef)
  | raw (bytes : Bytes)
  deriving DecidableEq, Repr

namespace CodeStep

/-- The step that returns from a method without a value. -/
def returnVoid : CodeStep :=
  raw [0xB1]

/-- The bytes of a step; calls of interface methods carry an argument count and a zero. -/
def encode : CodeStep → Drafting Bytes
  | line _ => return []
  | invoke .interface ref => do
      let slot ← Drafting.interfaceMethod ref
      return InvokeKind.interface.opcode :: Bytes.ofUInt16 slot ++ [1, 0]
  | invoke kind ref => do
      let slot ← Drafting.method ref
      return kind.opcode :: Bytes.ofUInt16 slot
  | raw bytes => return bytes

/-- The line table of steps with their bytes, where `offset` is that of the first step. -/
def lineTable (offset : Nat) : List (CodeStep × Bytes) → List LineEntry
  | [] => []
  | (line number, _) :: rest => ⟨UInt16.ofNat offset, number⟩ :: lineTable offset rest
  | (_, bytes) :: rest => lineTable (offset + bytes.length) rest

end CodeStep

/-- Straight-line code in the making. -/
structure CodeDraft where
  steps : List CodeStep
  /-- Whether the line steps are written down. -/
  lineTable : Bool := true

/-- The bytes of a row of a line table. -/
def LineEntry.encode (entry : LineEntry) : Bytes :=
  Bytes.ofUInt16 entry.start ++ Bytes.ofUInt16 entry.line

/-- The body of a `Code` attribute. -/
def CodeDraft.encode (draft : CodeDraft) : Drafting Bytes := do
  let pieces ← draft.steps.mapM CodeStep.encode
  let code := pieces.flatten
  let table := CodeStep.lineTable 0 (draft.steps.zip pieces)
  let attributes ← Drafting.attributes <|
    if draft.lineTable then
      [("LineNumberTable", Drafting.count table.length ++ table.flatMap LineEntry.encode)]
    else []
  return Bytes.ofUInt16 8 ++ Bytes.ofUInt16 8 ++ Bytes.ofUInt32 (UInt32.ofNat code.length) ++
    code ++ Bytes.ofUInt16 0 ++ attributes

/-- A method in the making. -/
structure MethodDraft where
  name : String
  descriptor : String
  access : Access := .ofPublic
  deprecated : Bool := false
  annotations : List AnnotationUse := []
  parameterAnnotations : List (List AnnotationUse) := []
  code : Option CodeDraft := none

namespace MethodDraft

/-- The method with an annotation on the parameter at an index; parameters before it without one
get an empty list. -/
def annotateParameter (method : MethodDraft) (index : Nat) (use : AnnotationUse) : MethodDraft :=
  let lists := method.parameterAnnotations
  let filled := lists ++ List.replicate (index + 1 - lists.length) []
  { method with parameterAnnotations := filled.modify index fun uses => uses ++ [use] }

/-- The attribute with the code of a method. -/
def codeAttribute : Option CodeDraft → Drafting (List (String × Bytes))
  | none => return []
  | some code => return [("Code", ← code.encode)]

/-- The attribute with the annotations of the parameters of a method. -/
def parameterAttribute : List (List AnnotationUse) → Drafting (List (String × Bytes))
  | [] => return []
  | lists => do
      let encoded ← lists.mapM Drafting.annotations
      return [("RuntimeVisibleParameterAnnotations", UInt8.ofNat lists.length :: encoded.flatten)]

/-- The attributes of a method that it has something to say in, in the order of writing. -/
def attributes (method : MethodDraft) : Drafting (List (String × Bytes)) := do
  let code ← codeAttribute method.code
  let deprecated := if method.deprecated then [("Deprecated", [])] else []
  let own ← Drafting.annotationAttribute method.annotations
  let parameters ← parameterAttribute method.parameterAnnotations
  return code ++ deprecated ++ own ++ parameters

/-- The bytes of a method. -/
def encode (method : MethodDraft) : Drafting Bytes := do
  let name ← Drafting.utf8 method.name
  let descriptor ← Drafting.utf8 method.descriptor
  let attributes ← Drafting.attributes (← method.attributes)
  return Bytes.ofUInt16 method.access.bits ++ Bytes.ofUInt16 name ++
    Bytes.ofUInt16 descriptor ++ attributes

end MethodDraft

/-- A class in the making. -/
structure ClassDraft where
  name : String
  superName : Option String := some "java.lang.Object"
  interfaces : List String := []
  access : Access := .ofPublic
  majorVersion : UInt16 := 52
  sourceFile : Option String := none
  annotations : List AnnotationUse := []
  methods : List MethodDraft := []
  pool : PoolDraft := ⟨[]⟩

/-- An addition to a class in the making. -/
inductive ClassStep where
  | access (flags : Access)
  | version (major : UInt16)
  | superclass (name : String)
  | implements (name : String)
  | sourceFile (name : String)
  | annotate (use : AnnotationUse)
  /-- Reserves a slot for a class method. -/
  | reserveMethod (ref : MemberRef)
  /-- Reserves a slot for an interface method. -/
  | reserveInterfaceMethod (ref : MemberRef)
  /-- Reserves two slots for a number. -/
  | reserveLong (value : Int64)
  | method (draft : MethodDraft)

namespace ClassDraft

/-- The draft of a public type of a given kind. -/
def ofKind (kind : TypeKind) (name : String) : ClassDraft :=
  let interfaceBits := Access.publicFlag ||| Access.interfaceFlag ||| Access.abstractFlag
  match kind with
  | .classType => { name }
  | .interfaceType => { name, access := ⟨interfaceBits⟩ }
  | .annotationType =>
      { name, access := ⟨interfaceBits ||| Access.annotationFlag⟩,
        interfaces := ["java.lang.annotation.Annotation"] }

/-- The draft after a reservation, and the slot that was handed out. -/
def reserve (draft : ClassDraft) (drafting : Drafting UInt16) : ClassDraft × Option UInt16 :=
  let (slot, pool) := drafting draft.pool
  ({ draft with pool }, some slot)

/-- The draft after a step, and the slot that the step reserved. -/
def apply (draft : ClassDraft) : ClassStep → ClassDraft × Option UInt16
  | .access flags => ({ draft with access := flags }, none)
  | .version major => ({ draft with majorVersion := major }, none)
  | .superclass name => ({ draft with superName := some name }, none)
  | .implements name => ({ draft with interfaces := draft.interfaces ++ [name] }, none)
  | .sourceFile name => ({ draft with sourceFile := some name }, none)
  | .annotate use => ({ draft with annotations := draft.annotations ++ [use] }, none)
  | .reserveMethod ref => draft.reserve (Drafting.method ref)
  | .reserveInterfaceMethod ref => draft.reserve (Drafting.interfaceMethod ref)
  | .reserveLong value => draft.reserve (Drafting.append (.long value.toUInt64))
  | .method method => ({ draft with methods := draft.methods ++ [method] }, none)

/-- The draft after all steps, and the reserved slots in order. -/
def applyAll (draft : ClassDraft) : List ClassStep → ClassDraft × List UInt16
  | [] => (draft, [])
  | step :: rest =>
      let (next, slot) := draft.apply step
      let (final, slots) := next.applyAll rest
      (final, slot.toList ++ slots)

/-- The attribute with the source file of a class. -/
def sourceAttribute : Option String → Drafting (List (String × Bytes))
  | none => return []
  | some file => return [("SourceFile", Bytes.ofUInt16 (← Drafting.utf8 file))]

/-- The attributes of a class that it has something to say in, in the order of writing. -/
def attributes (draft : ClassDraft) : Drafting (List (String × Bytes)) := do
  let source ← sourceAttribute draft.sourceFile
  let own ← Drafting.annotationAttribute draft.annotations
  return source ++ own

/-- The slot of the super class, zero for none. -/
def superclassSlot : Option String → Drafting UInt16
  | none => return 0
  | some name => Drafting.classReference name

/-- The bytes of a class file after its constant pool. -/
def encodeBody (draft : ClassDraft) : Drafting Bytes := do
  let name ← Drafting.classReference draft.name
  let superclass ← superclassSlot draft.superName
  let interfaces ← draft.interfaces.mapM Drafting.classReference
  let methods ← draft.methods.mapM MethodDraft.encode
  let attributes ← Drafting.attributes (← draft.attributes)
  return Bytes.ofUInt16 draft.access.bits ++ Bytes.ofUInt16 name ++ Bytes.ofUInt16 superclass ++
    Drafting.count interfaces.length ++ interfaces.flatMap Bytes.ofUInt16 ++
    Drafting.count 0 ++ Drafting.count methods.length ++ methods.flatten ++ attributes

/-- The class file of a draft. -/
def assemble (draft : ClassDraft) : Bytes :=
  let (body, pool) := draft.encodeBody draft.pool
  Bytes.ofUInt32 signature ++ Bytes.ofUInt16 0 ++ Bytes.ofUInt16 draft.majorVersion ++
    Drafting.count pool.nextSlot ++ pool.encode ++ body

end ClassDraft

end ApiCoverage.ClassFile
