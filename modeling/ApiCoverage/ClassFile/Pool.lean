import ApiCoverage.ClassFile.Constant
import ApiCoverage.Descriptor

/-!
# The constant pool

Constants are addressed by slot. Slot 0 and the second slot of a wide constant hold nothing. The
file states the number of slots, slot 0 included; a wide constant in the last slot loses its second
half. Names of classes are stored with slashes and are given out with dots.

The symbols of a pool are its method references with every index followed. A method reference whose
indexes lead nowhere makes the whole file unreadable, whether code uses it or not; field references
are never followed.
-/

namespace ApiCoverage.ClassFile

/-- A method of a class, by the dotted name of the class, its name and its descriptor. -/
structure MemberRef where
  owner : String
  name : String
  descriptor : String
  deriving DecidableEq, Repr

/-- What a slot means to the reader of method calls. -/
inductive Symbol where
  | method (ref : MemberRef)
  | interfaceMethod (ref : MemberRef)
  | other
  deriving DecidableEq, Repr

/-- The method that a symbol refers to. -/
def Symbol.member? : Symbol → Option MemberRef
  | method ref => some ref
  | interfaceMethod ref => some ref
  | other => none

/-- The slots of a constant pool, where `none` is a slot that holds no constant. -/
structure Pool where
  slots : Array (Option Constant)

namespace Pool

/-- A class name with dots for slashes. -/
def dottedName (name : String) : String :=
  String.ofList (Descriptor.dotted name.toList)

/-- Reads constants into the next `count` slots. -/
def readSlots (slots : Array (Option Constant)) : Nat → Reader (Array (Option Constant))
  | 0 => fun cursor => .ok (slots, cursor)
  | count + 1 => fun cursor =>
      match Constant.read slots.size cursor with
      | .error fault => .error fault
      | .ok (constant, next) =>
          if constant.isWide then
            match count with
            | 0 => .ok (slots.push (some constant), next)
            | fewer + 1 => readSlots ((slots.push (some constant)).push none) fewer next
          else
            readSlots (slots.push (some constant)) count next

/-- Reads a constant pool. -/
def read : Reader Pool := do
  let count ← Reader.word .constantPool
  let slots ← readSlots #[none] (count.toNat - 1)
  return ⟨slots⟩

/-- The constant in a slot. -/
def get? (pool : Pool) (slot : UInt16) : Option Constant :=
  (pool.slots[slot.toNat]?).join

/-- The text of a `Utf8` constant. -/
def utf8 (pool : Pool) (slot : UInt16) : Except Fault String :=
  match pool.get? slot with
  | some (.utf8 text) => .ok text
  | _ => .error (.badConstantIndex slot .utf8)

/-- The dotted name of a `Class` constant. -/
def className (pool : Pool) (slot : UInt16) : Except Fault String :=
  match pool.get? slot with
  | some (.classReference name) => (pool.utf8 name).map dottedName
  | _ => .error (.badConstantIndex slot .classReference)

/-- The name and the descriptor of a `NameAndType` constant. -/
def nameAndType (pool : Pool) (slot : UInt16) : Except Fault (String × String) :=
  match pool.get? slot with
  | some (.nameAndType name descriptor) => do
      let name ← pool.utf8 name
      let descriptor ← pool.utf8 descriptor
      return (name, descriptor)
  | _ => .error (.badConstantIndex slot .nameAndType)

/-- The method that a reference constant points to. -/
def member (pool : Pool) (owner nameAndType : UInt16) : Except Fault MemberRef := do
  let (name, descriptor) ← pool.nameAndType nameAndType
  let owner ← pool.className owner
  return ⟨owner, name, descriptor⟩

/-- What a slot means to the reader of method calls. -/
def symbol (pool : Pool) : Option Constant → Except Fault Symbol
  | some (.methodReference owner member) => (pool.member owner member).map .method
  | some (.interfaceMethodReference owner member) =>
      (pool.member owner member).map .interfaceMethod
  | _ => .ok .other

/-- The symbols of slots, on top of those in `done`, which stand in reverse. -/
def symbolsOnto (pool : Pool) (done : List Symbol) :
    List (Option Constant) → Except Fault (List Symbol)
  | [] => .ok done.reverse
  | slot :: rest =>
      match pool.symbol slot with
      | .error fault => .error fault
      | .ok symbol => symbolsOnto pool (symbol :: done) rest

/-- The symbols of every slot in order, slot 0 included. -/
def symbols (pool : Pool) : Except Fault (List Symbol) :=
  pool.symbolsOnto [] pool.slots.toList

end Pool

end ApiCoverage.ClassFile
