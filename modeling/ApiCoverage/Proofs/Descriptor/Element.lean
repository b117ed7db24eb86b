import ApiCoverage.Proofs.Descriptor.Spelling

/-!
# Reading a type without counting brackets

A type is read with a count of the brackets before it, and its array layers are put around it at the end.
The same comes of reading the element behind a bracket on its own and putting one layer around it: the
refusals are the same, in the same order. The equations of this module therefore speak of types with no
bracket counted, and an induction on the text follows them.
-/

namespace ApiCoverage.Descriptor

open JvmType (arrayOf arrayOf_succ)

variable {context : Context} {descriptor : String}

/-! ## One layer -/

/-- Puts one array layer around an element type. -/
def arrayed (descriptor : String) (element : JvmType) : Except Fault JvmType :=
  if element = .void then .error (.misplacedVoid descriptor) else .ok (.array element)

@[simp]
theorem layered_zero (type : JvmType) : layered descriptor 0 type = .ok type := by
  simp [layered, arrayOf]

/-- The outermost layer can be put around a type after the others. -/
theorem layered_succ (depth : Nat) (type : JvmType) :
    layered descriptor (depth + 1) type = layered descriptor depth type >>= arrayed descriptor := by
  cases depth with
  | zero =>
      rw [layered_zero]
      simp [layered, arrayed, arrayOf, bind, Except.bind]
  | succ depth =>
      by_cases void : type = .void
      · subst void
        simp [layered, bind, Except.bind]
      · have inside : layered descriptor (depth + 1) type = .ok (arrayOf (depth + 1) type) :=
          layered_eq_ok_iff.2 ⟨fun _ => void, rfl⟩
        have whole : layered descriptor (depth + 2) type = .ok (arrayOf (depth + 2) type) :=
          layered_eq_ok_iff.2 ⟨fun _ => void, rfl⟩
        rw [inside, whole, arrayOf_succ (depth + 1)]
        simp [arrayed, arrayOf_succ, bind, Except.bind]

/-- Puts one array layer around an element type that was read. -/
def Progress.arrayed (descriptor : String) (element : Progress JvmType) :
    Except Fault (Progress JvmType) :=
  (Descriptor.arrayed descriptor element.value).map fun type => { element with value := type }

/-- A bracket that is counted is a layer around what is read without it. -/
theorem decodeType_succ (context : Context) (descriptor : String) (depth offset : Nat)
    (chars : List Char) :
    decodeType context descriptor (depth + 1) offset chars =
      decodeType context descriptor depth offset chars >>= Progress.arrayed descriptor := by
  fun_induction decodeType context descriptor depth offset chars with
  | case1 => rfl
  | case2 depth offset rest ih => rw [decodeType, ih]
  | case3 depth offset rest =>
      rw [decodeType]
      cases decodeClassName context descriptor (offset + 1) rest with
      | error => rfl
      | ok base =>
          simp only [bind, Except.bind, layered_succ]
          cases layered descriptor depth base.value <;> rfl
  | case4 depth offset letter rest notArray notClass unknown =>
      rw [decodeType, unknown]
      · rfl
      · exact notArray
      · exact notClass
  | case5 depth offset letter rest notArray notClass primitive known =>
      rw [decodeType, known]
      · simp only [bind, Except.bind, layered_succ]
        cases layered descriptor depth (.primitive primitive) <;> rfl
      · exact notArray
      · exact notClass

/-! ## The first character decides -/

variable (offset : Nat) (rest : List Char)

theorem decodeType_bracket :
    decodeType context descriptor 0 offset ('[' :: rest) =
      decodeType context descriptor 0 (offset + 1) rest >>= Progress.arrayed descriptor := by
  rw [decodeType, decodeType_succ]

theorem decodeType_className :
    decodeType context descriptor 0 offset ('L' :: rest) =
      decodeClassName context descriptor (offset + 1) rest := by
  rw [decodeType]
  cases decodeClassName context descriptor (offset + 1) rest with
  | error => rfl
  | ok base => simp [bind, Except.bind, pure, Except.pure]

theorem decodeType_letter {letter : Char} (notArray : letter ≠ '[') (notClass : letter ≠ 'L') :
    decodeType context descriptor 0 offset (letter :: rest) =
      match Primitive.ofCode? letter with
      | none => .error (.unknownCode descriptor letter offset)
      | some primitive => .ok ⟨.primitive primitive, offset + 1, rest⟩ := by
  rw [decodeType]
  · cases Primitive.ofCode? letter with
    | none => rfl
    | some primitive => simp [bind, Except.bind, pure, Except.pure]
  · exact notArray
  · exact notClass

end ApiCoverage.Descriptor
