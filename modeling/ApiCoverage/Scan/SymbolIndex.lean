import ApiCoverage.ClassFile.Unit
import ApiCoverage.Surface.Tracked

/-!
# The symbol index of a class file

Calls in a class file name a constant pool slot. The index tells for each slot which tracked method
it refers to, so that every reference is looked up once, however often the code calls it.
-/

namespace ApiCoverage

open ClassFile (ClassUnit MemberRef Symbol)

/-- A tracked method and the surface that tracks it. -/
structure TrackedMethod where
  surface : String
  key : MethodKey
  deriving DecidableEq, Repr

namespace TrackedSurfaces

/-- The tracked method that a reference leads to. -/
def targetOf? (tracked : TrackedSurfaces) (ref : MemberRef) : Option TrackedMethod :=
  let key : MethodKey := ⟨ref.name, ref.descriptor⟩
  (tracked.declarer? ref.owner key).map fun surface => ⟨surface, key⟩

end TrackedSurfaces

/-- The tracked method of every constant pool slot that refers to one. -/
structure SymbolIndex where
  slots : Array (Option TrackedMethod)

namespace SymbolIndex

/-- The tracked method that a symbol refers to. -/
def targetOfSymbol? (tracked : TrackedSurfaces) : Symbol → Option TrackedMethod
  | .method ref => tracked.targetOf? ref
  | .interfaceMethod ref => tracked.targetOf? ref
  | .other => none

/-- The index of a class file. -/
def ofUnit (tracked : TrackedSurfaces) (unit : ClassUnit) : SymbolIndex :=
  ⟨unit.symbols.map (targetOfSymbol? tracked)⟩

/-- The tracked method in a slot. -/
def get? (index : SymbolIndex) (slot : UInt16) : Option TrackedMethod :=
  (index.slots[slot.toNat]?).join

/-- The slots that refer to tracked methods, in order. -/
def entries (index : SymbolIndex) : List (Nat × TrackedMethod) :=
  index.slots.toList.zipIdx.filterMap fun (target, slot) => target.map fun target => (slot, target)

/-- Whether no slot refers to a tracked method. -/
def isEmpty (index : SymbolIndex) : Bool :=
  index.slots.toList.all Option.isNone

end SymbolIndex

end ApiCoverage
