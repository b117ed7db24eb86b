import ApiCoverage.Proofs.Descriptor.Spelling

/-!
# Reading a descriptor that was written

Writing a descriptor is total, but some signatures have no descriptor of their own: `void` as a
parameter or as an array element, and class names that are empty or hold one of the characters with
a meaning in descriptors. Every other signature is read back from its descriptor, so no two of them
share one.
-/

namespace ApiCoverage

namespace JvmType

/-- No array layer holds `void`, and class names can stand before a semicolon. -/
def Describable : JvmType → Prop
  | .primitive _ => True
  | .object name => name ≠ "" ∧ ';' ∉ name.toList ∧ '/' ∉ name.toList
  | .array element => element ≠ void ∧ element.Describable

/-- The conditions on a type can be checked. -/
def decideDescribable : (type : JvmType) → Decidable type.Describable
  | .primitive _ => .isTrue trivial
  | .object name =>
      inferInstanceAs (Decidable (name ≠ "" ∧ ';' ∉ name.toList ∧ '/' ∉ name.toList))
  | .array element =>
      have := decideDescribable element
      inferInstanceAs (Decidable (element ≠ void ∧ element.Describable))

instance : DecidablePred Describable := decideDescribable

end JvmType

/-- The types have descriptors, and no parameter is `void`. The return type may be. -/
structure Signature.Describable (signature : Signature) : Prop where
  returns : signature.returns.Describable
  params : ∀ param ∈ signature.params, param ≠ .void ∧ param.Describable

namespace Descriptor

/-! ## Descriptors spell what they were written for -/

/-- A written class name spells the class: its slashes become the dots that they were. -/
theorem spells_encodeType_object {name : String} (describable : (JvmType.object name).Describable) :
    Spells (encodeType (.object name)) (.object name) := by
  rcases describable with ⟨present, unterminated, unslashed⟩
  have filled : slashed name.toList ≠ [] := by
    simpa [slashed] using present
  have spells := Spells.object filled (semicolon_not_mem_slashed unterminated)
  rwa [dotted_slashed, dotted_eq_self unslashed, String.ofList_toList] at spells

theorem spells_encodeType {type : JvmType} (describable : type.Describable) :
    Spells (encodeType type) type := by
  induction type with
  | primitive type => exact .primitive type
  | object name => exact spells_encodeType_object describable
  | array element ih =>
      rcases describable with ⟨present, describable⟩
      exact .array (ih describable) present

/-- Written parameters spell what they were written for, one by one. -/
theorem forall₂_spellsParam {params : List JvmType}
    (describable : ∀ param ∈ params, param ≠ .void ∧ param.Describable) :
    List.Forall₂ SpellsParam (params.map encodeType) params := by
  rw [List.forall₂_map_left_iff, List.forall₂_same]
  intro param member
  obtain ⟨present, written⟩ := describable param member
  exact ⟨spells_encodeType written, present⟩

theorem spellsSignature_encode {signature : Signature} (describable : signature.Describable) :
    SpellsSignature (encode signature).toList signature := by
  rcases signature with ⟨returns, params⟩
  rw [encode, String.toList_ofList, encodeChars, List.flatMap]
  exact .mk (forall₂_spellsParam describable.params) (spells_encodeType describable.returns)

/-- A written descriptor is read as the signature it was written for. -/
theorem decode_openContext_encode {signature : Signature}
    (describable : signature.Describable) :
    decode openContext (encode signature) = .ok signature :=
  decode_openContext_eq_ok_iff.2 (spellsSignature_encode describable)

/-- A describable signature is read back from its descriptor, and no other describable signature
has this descriptor. -/
theorem decodeOpen_encode {signature : Signature} (describable : signature.Describable) :
    decodeOpen (encode signature) = .ok signature ∧
      ∀ other : Signature, other.Describable → encode other = encode signature →
        other = signature := by
  have read := decode_openContext_encode describable
  constructor
  · exact read
  · intro other otherDescribable same
    have otherRead := decode_openContext_encode otherDescribable
    rw [same, read] at otherRead
    exact (Except.ok.inj otherRead).symm

/-- Nothing comes back, and the parameters are arrays and classes, one of them with a name beyond
the basic plane. -/
def sampleSignature : Signature :=
  ⟨.void, [.array (.array (.object "a.b.𝔻$C")), .primitive .long, .object "D"]⟩

theorem decodeOpen_encode_sampleSignature :
    sampleSignature.Describable ∧ decodeOpen (encode sampleSignature) = .ok sampleSignature ∧
      ∀ other : Signature, other.Describable → encode other = encode sampleSignature →
        other = sampleSignature := by
  have describable : sampleSignature.Describable := ⟨by decide, by decide⟩
  exact ⟨describable, decodeOpen_encode describable⟩

end Descriptor

end ApiCoverage
