import ApiCoverage.Descriptor

/-!
# Method keys

Within a type, a method is identified by its name and its exact descriptor. Keys are ordered by
name and then by descriptor, both as texts by code points. An annotation type without members is
tracked through one key of its own, which no method of a class file can have.
-/

namespace ApiCoverage

/-- The name and the descriptor of a method. -/
structure MethodKey where
  name : String
  descriptor : String
  deriving DecidableEq, Repr

namespace MethodKey

instance : Ord MethodKey where
  compare := compareLex (compareOn name) (compareOn descriptor)

instance : Std.TransOrd MethodKey :=
  inferInstanceAs (Std.TransCmp (compareLex (compareOn name) (compareOn descriptor)))

instance : Std.LawfulEqOrd MethodKey where
  eq_of_compare {first second} same := by
    change (compare first.name second.name).then (compare first.descriptor second.descriptor) = .eq
      at same
    rw [Ordering.then_eq_eq] at same
    cases first
    cases second
    simp_all [Std.LawfulEqCmp.compare_eq_iff_eq]

/-- The key under which uses of an annotation type without members are counted. -/
def usage : MethodKey :=
  ⟨"<usage>", "()V"⟩

/-- The plain form `name@descriptor`. -/
def display (key : MethodKey) : String :=
  s!"{key.name}@{key.descriptor}"

/-- The form `name(type, type)`, or the plain form if the descriptor cannot be read. -/
def signature (key : MethodKey) : String :=
  match Descriptor.display key.name key.descriptor with
  | .ok text => text
  | .error _ => key.display

/-- The form `Return name(type, type)`, or the plain form if the descriptor cannot be read; the
usage key shows its name alone. -/
def fullSignature (key : MethodKey) : String :=
  if key = usage then key.name
  else
    match Descriptor.displayFull key.name key.descriptor with
    | .ok text => text
    | .error _ => key.display

end MethodKey

end ApiCoverage
