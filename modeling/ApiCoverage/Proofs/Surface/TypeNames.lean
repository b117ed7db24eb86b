import ApiCoverage.Proofs.Descriptor.Named
import ApiCoverage.Surface.DeclarationFile

/-!
# Descriptors that are built from type names

A declaration file may give the types of a method as type names of source text. The names are read from
left to right, the return type last, and the first that is no type name is the reason for a refusal. If all
are type names, there is a descriptor, and it is read as the signature that the names stand for; only where
a parameter is named `void` does reading the descriptor fail, and then for this reason.
-/

namespace ApiCoverage

open JvmType (parseSourceName)

/-! ## Descriptors with a parameter of type `void` -/

namespace Descriptor

/-- A letter of `void` behind spelled parameters is refused, whatever follows. -/
theorem decodeParams_void (descriptor : String) {pieces : List (List Char)} {params : List JvmType}
    (spelled : List.Forall₂ SpellsParam pieces params) (done : List JvmType) (offset : Nat)
    (rest : List Char) :
    decodeParams openContext descriptor done offset
        (pieces.flatten ++ Primitive.void.code :: rest) =
      .error (.misplacedVoid descriptor) := by
  have opens : Primitive.void.code ≠ ')' := by decide
  rw [decodeParams_append descriptor spelled, decodeParams_eq_bind opens, decodeType_code,
    layered_eq_ok_iff.2 ⟨fun deep => absurd deep (Nat.lt_irrefl 0), rfl⟩]
  rfl

/-- A parameter of type `void` is refused where the parameters have descriptors. -/
theorem decode_encode_of_void_mem {signature : Signature}
    (describable : ∀ param ∈ signature.params, param.Describable) (void : .void ∈ signature.params) :
    decode openContext (encode signature) = .error (.misplacedVoid (encode signature)) := by
  -- The first of these parameters is the one that is met, so there are none among those in front of it.
  obtain ⟨before, after, split, unmet⟩ := List.eq_append_cons_of_mem void
  have spelled : List.Forall₂ SpellsParam (before.map encodeType) before := by
    apply forall₂_spellsParam
    intro param member
    refine ⟨?_, describable param ?_⟩
    · rintro rfl
      exact unmet member
    · rw [split]
      exact List.mem_append_left _ member
  have shape : (encode signature).toList = '(' :: ((before.map encodeType).flatten ++
      Primitive.void.code :: (after.flatMap encodeType ++ ')' :: encodeType signature.returns)) := by
    rw [encode, String.toList_ofList, encodeChars, split]
    simp [List.flatMap, encodeType]
  rw [decode, shape]
  simp only [decodeParams_void _ spelled]
  rfl

end Descriptor

/-! ## Reading the names -/

namespace DeclaredMethod

/-- A text is a type name. -/
def IsTypeName (name : String) : Prop :=
  ∃ type, parseSourceName name = .ok type

/-- Type names stand for a signature: one for each parameter, and one for the return type, which is `void`
if it has none. -/
inductive NamesSignature : List String → Option String → Signature → Prop where
  | procedure {names : List String} {params : List JvmType}
      (named : List.Forall₂ (fun name type => parseSourceName name = .ok type) names params) :
      NamesSignature names none ⟨.void, params⟩
  | function {names : List String} {params : List JvmType} {name : String} {returns : JvmType}
      (named : List.Forall₂ (fun name type => parseSourceName name = .ok type) names params)
      (returned : parseSourceName name = .ok returns) :
      NamesSignature names (some name) ⟨returns, params⟩

section Names

variable {names others : List String} {types : List JvmType} {fault : Descriptor.Fault}

theorem sourceTypes_eq_of_forall₂
    (named : List.Forall₂ (fun name type => parseSourceName name = .ok type) names types) :
    sourceTypes names = .ok types := by
  induction named with
  | nil => rfl
  | cons read _ ih =>
      rw [sourceTypes, read, ih]
      rfl

theorem exists_forall₂_of_isTypeName (typeNames : ∀ name ∈ names, IsTypeName name) :
    ∃ types, List.Forall₂ (fun name type => parseSourceName name = .ok type) names types := by
  induction names with
  | nil => exact ⟨[], .nil⟩
  | cons name rest ih =>
      rw [List.forall_mem_cons] at typeNames
      obtain ⟨type, read⟩ := typeNames.1
      obtain ⟨types, named⟩ := ih typeNames.2
      exact ⟨type :: types, .cons read named⟩

theorem exists_name_of_mem
    (named : List.Forall₂ (fun name type => parseSourceName name = .ok type) names types) :
    ∀ type ∈ types, ∃ text, parseSourceName text = .ok type := by
  induction named with
  | nil => simp
  | cons read _ ih => exact List.forall_mem_cons.2 ⟨⟨_, read⟩, ih⟩

/-- Reading names stops at the first that is no type name. -/
theorem sourceTypes_append_cons {before after : List String} {name : String}
    (typeNames : ∀ earlier ∈ before, IsTypeName earlier)
    (refused : parseSourceName name = .error fault) :
    sourceTypes (before ++ name :: after) = .error fault := by
  induction before with
  | nil => rw [List.nil_append, sourceTypes, refused]
  | cons first rest ih =>
      rw [List.forall_mem_cons] at typeNames
      obtain ⟨type, read⟩ := typeNames.1
      rw [List.cons_append, sourceTypes, read, ih typeNames.2]
      rfl

/-- The names in front are read first. -/
theorem sourceTypes_append :
    sourceTypes (names ++ others) =
      sourceTypes names >>= fun types => (sourceTypes others).map (types ++ ·) := by
  induction names with
  | nil => cases read : sourceTypes others <;> simp [sourceTypes, read, bind, Except.bind, Except.map]
  | cons name rest ih =>
      rw [List.cons_append, sourceTypes, sourceTypes, ih]
      cases parseSourceName name with
      | error => rfl
      | ok type =>
          cases sourceTypes rest with
          | error => rfl
          | ok types => cases sourceTypes others <;> rfl

end Names

variable {params : List String} {returns : Option String} {signature : Signature}
  {fault : Descriptor.Fault}

/-- A descriptor is refused for the same reason as the names in their order. -/
theorem sourceDescriptor_eq_error (refused : sourceTypes (params ++ returns.toList) = .error fault) :
    sourceDescriptor params returns = .error fault := by
  rw [sourceTypes_append] at refused
  rcases Outcome.bind_eq_error_iff.1 refused with first | ⟨types, read, last⟩
  · rw [sourceDescriptor, first]
    rfl
  · cases returns with
    | none => cases last
    | some name =>
        rw [Option.toList_some, sourceTypes] at last
        cases returned : parseSourceName name with
        | error =>
            rw [returned] at last
            cases last
            rw [sourceDescriptor, read]
            dsimp only
            rw [returned]
            rfl
        | ok type =>
            rw [returned] at last
            cases last

theorem NamesSignature.sourceDescriptor_eq (names : NamesSignature params returns signature) :
    sourceDescriptor params returns = .ok (Descriptor.encode signature) := by
  cases names with
  | procedure named =>
      rw [sourceDescriptor, sourceTypes_eq_of_forall₂ named]
      rfl
  | function named returned =>
      rw [sourceDescriptor, sourceTypes_eq_of_forall₂ named]
      dsimp only
      rw [returned]
      rfl

theorem exists_namesSignature (typeNames : ∀ name ∈ params ++ returns.toList, IsTypeName name) :
    ∃ signature, NamesSignature params returns signature := by
  rw [List.forall_mem_append] at typeNames
  obtain ⟨types, named⟩ := exists_forall₂_of_isTypeName typeNames.1
  cases returns with
  | none => exact ⟨_, .procedure named⟩
  | some name =>
      obtain ⟨type, returned⟩ := typeNames.2 name (by simp)
      exact ⟨_, .function named returned⟩

theorem NamesSignature.named_params (names : NamesSignature params returns signature) :
    List.Forall₂ (fun name type => parseSourceName name = .ok type) params signature.params := by
  cases names with
  | procedure named => exact named
  | function named _ => exact named

theorem NamesSignature.named (names : NamesSignature params returns signature)
    (nonvoid : .void ∉ signature.params) : signature.Named := by
  constructor
  · cases names with
    | procedure => exact ⟨_, JvmType.isNameable_void.parseSourceName_eq⟩
    | function _ returned => exact ⟨_, returned⟩
  · intro param member
    refine ⟨?_, exists_name_of_mem names.named_params param member⟩
    rintro rfl
    exact nonvoid member

/-- Type names give a descriptor. It is read as the signature that the names stand for, which is written as
this descriptor again, unless a parameter is `void`: then reading it fails for this reason. If there is a
text that is no type name, the first such text in the order of the parameters, with the return type behind
them, is why there is no descriptor. -/
theorem sourceDescriptor_describes (params : List String) (returns : Option String) :
    ((∀ name ∈ params ++ returns.toList, IsTypeName name) →
      ∃ signature descriptor, NamesSignature params returns signature ∧
        sourceDescriptor params returns = .ok descriptor ∧
        (.void ∉ signature.params → Descriptor.decodeOpen descriptor = .ok signature ∧
          Descriptor.encode signature = descriptor) ∧
        (.void ∈ signature.params →
          Descriptor.decodeOpen descriptor = .error (.misplacedVoid descriptor))) ∧
    ∀ before name after fault, params ++ returns.toList = before ++ name :: after →
      (∀ earlier ∈ before, IsTypeName earlier) → parseSourceName name = .error fault →
      sourceDescriptor params returns = .error fault := by
  constructor
  · intro typeNames
    obtain ⟨signature, names⟩ := exists_namesSignature typeNames
    refine ⟨signature, Descriptor.encode signature, names, names.sourceDescriptor_eq, ?_, ?_⟩
    · intro nonvoid
      exact ⟨Descriptor.decode_openContext_encode (names.named nonvoid).describable, rfl⟩
    · intro void
      apply Descriptor.decode_encode_of_void_mem _ void
      intro param member
      obtain ⟨text, read⟩ := exists_name_of_mem names.named_params param member
      exact (JvmType.isNameable_of_parseSourceName read).describable
  · intro before name after fault split typeNames refused
    apply sourceDescriptor_eq_error
    rw [split]
    exact sourceTypes_append_cons typeNames refused

/-- A `void` among the parameters has a descriptor, which cannot be read. -/
example : sourceDescriptor ["a.B[]", "void"] none = .ok "([La/B;V)V" ∧
    Descriptor.decodeOpen "([La/B;V)V" = .error (.misplacedVoid "([La/B;V)V") := by
  decide +kernel

end DeclaredMethod

end ApiCoverage
