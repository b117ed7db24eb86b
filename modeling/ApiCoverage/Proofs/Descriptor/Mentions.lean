import ApiCoverage.Proofs.Descriptor.Spelling

/-!
# The class names in a descriptor

The class names of a descriptor are listed from left to right, each with the place in which it stands:
only the name right behind the parameters is a return type of its own, every other one is a parameter or
the element of an array. In the text they are found without reading types, because outside of class names
the letter `L` only opens one. The signature that the text spells mentions the same names in the same
order.
-/

namespace ApiCoverage

/-- A class name in a descriptor, with dots. -/
structure ClassMention where
  name : String
  /-- Whether the class is the return type itself. -/
  returned : Bool
  deriving DecidableEq, Repr

/-- The class names in a type; `returned` says whether the type is the return type. -/
def JvmType.mentions (returned : Bool) : JvmType → List ClassMention
  | .primitive _ => []
  | .object name => [⟨name, returned⟩]
  | .array element => element.mentions false

/-- The class names in a signature, the return type last. -/
def Signature.mentions (signature : Signature) : List ClassMention :=
  signature.params.flatMap (JvmType.mentions false) ++ signature.returns.mentions true

namespace Descriptor

/-- The class names in the text of a descriptor, from left to right; `closed` says whether the character
in front of the text closes the parameters. -/
def mentionsFrom (closed : Bool) : List Char → List ClassMention
  | [] => []
  | 'L' :: rest =>
      ⟨String.ofList (dotted (rest.takeWhile (· != ';'))), closed⟩ ::
        mentionsFrom false (rest.dropWhile (· != ';'))
  | char :: rest => mentionsFrom (char == ')') rest
  termination_by chars => chars.length
  decreasing_by
    · have shorter := (List.dropWhile_suffix (fun char => char != ';') (l := rest)).length_le
      simp only [List.length_cons]
      omega
    · simp

/-- The class names in a descriptor, from left to right. -/
def mentions (descriptor : String) : List ClassMention :=
  mentionsFrom false descriptor.toList

theorem mentionsFrom_cons (closed : Bool) {char : Char} (rest : List Char) (other : char ≠ 'L') :
    mentionsFrom closed (char :: rest) = mentionsFrom (char == ')') rest := by
  rw [mentionsFrom]
  exact other

/-- A spelled type mentions its class names, whatever follows. -/
theorem Spells.mentionsFrom_append {text : List Char} {type : JvmType} (spells : Spells text type)
    (closed : Bool) (rest : List Char) :
    mentionsFrom closed (text ++ rest) = type.mentions closed ++ mentionsFrom false rest := by
  induction spells generalizing closed with
  | primitive type =>
      have other : type.code ≠ 'L' := by cases type <;> decide
      have opens : (type.code == ')') = false := by cases type <;> decide
      rw [List.singleton_append, mentionsFrom_cons closed rest other, opens]
      rfl
  | @object name present unterminated =>
      rw [List.append_assoc, List.cons_append, List.singleton_append, mentionsFrom,
        takeWhile_name unterminated, dropWhile_name unterminated,
        mentionsFrom_cons false rest (by decide)]
      rfl
  | array _ _ ih =>
      rw [List.cons_append, mentionsFrom_cons closed _ (by decide)]
      exact ih false

theorem mentionsFrom_flatten {pieces : List (List Char)} {params : List JvmType}
    (spelled : List.Forall₂ SpellsParam pieces params) (rest : List Char) :
    mentionsFrom false (pieces.flatten ++ rest) =
      params.flatMap (JvmType.mentions false) ++ mentionsFrom false rest := by
  induction spelled with
  | nil => rfl
  | cons head _ ih =>
      rw [List.flatten_cons, List.append_assoc, head.1.mentionsFrom_append, ih, List.flatMap_cons,
        List.append_assoc]

/-- The text of a descriptor mentions the class names of the signature that it spells. -/
theorem SpellsSignature.mentionsFrom_eq {text : List Char} {signature : Signature}
    (spelled : SpellsSignature text signature) :
    mentionsFrom false text = signature.mentions := by
  rcases spelled with @⟨pieces, params, text, returns, spelledParams, spells⟩
  have behind := spells.mentionsFrom_append true []
  rw [List.append_nil, mentionsFrom, List.append_nil] at behind
  rw [List.cons_append, mentionsFrom_cons false _ (by decide)]
  change mentionsFrom false (pieces.flatten ++ ')' :: text) = _
  rw [mentionsFrom_flatten spelledParams, mentionsFrom_cons false text (by decide)]
  exact congrArg _ behind

end Descriptor

end ApiCoverage
