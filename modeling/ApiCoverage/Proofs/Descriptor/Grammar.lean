import ApiCoverage.Proofs.Descriptor.RoundTrip

/-!
# The grammar of descriptors

A descriptor is a list of field types between parentheses, then a field type or the letter of
`void`. Reading accepts exactly the texts of this grammar. Writing what was read gives the text back
with slashes for its dots, so accepted texts mean the same signature exactly when they differ in
nothing but dots and slashes.
-/

namespace ApiCoverage.Descriptor

/-- The letters of the primitive types. -/
def fieldLetters : List Char :=
  ['Z', 'B', 'C', 'S', 'I', 'J', 'F', 'D']

/-- The texts of field types. -/
inductive IsField : List Char → Prop where
  | letter {letter : Char} (known : letter ∈ fieldLetters) : IsField [letter]
  | className {name : List Char} (present : name ≠ []) (unterminated : ';' ∉ name) :
      IsField ('L' :: name ++ [';'])
  | array {element : List Char} (field : IsField element) : IsField ('[' :: element)

/-- The texts of method descriptors. -/
inductive IsDescriptor : List Char → Prop where
  | mk {params : List (List Char)} {returns : List Char} (fields : ∀ param ∈ params, IsField param)
      (returned : IsField returns ∨ returns = ['V']) :
      IsDescriptor ('(' :: params.flatten ++ ')' :: returns)

/-! ## The grammar and the spellings -/

theorem mem_fieldLetters_iff {letter : Char} :
    letter ∈ fieldLetters ↔ ∃ type, type ≠ Primitive.void ∧ letter = type.code := by
  constructor
  · intro known
    simp only [fieldLetters, List.mem_cons, List.not_mem_nil, or_false] at known
    rcases known with rfl | rfl | rfl | rfl | rfl | rfl | rfl | rfl
    · exact ⟨.boolean, by decide, rfl⟩
    · exact ⟨.byte, by decide, rfl⟩
    · exact ⟨.char, by decide, rfl⟩
    · exact ⟨.short, by decide, rfl⟩
    · exact ⟨.int, by decide, rfl⟩
    · exact ⟨.long, by decide, rfl⟩
    · exact ⟨.float, by decide, rfl⟩
    · exact ⟨.double, by decide, rfl⟩
  · rintro ⟨type, nonvoid, rfl⟩
    cases type with
    | void => exact absurd rfl nonvoid
    | boolean | byte | char | short | int | long | float | double => decide

/-- The texts of field types are the spellings of all types but `void`. -/
theorem isField_iff {text : List Char} : IsField text ↔ ∃ type, SpellsParam text type := by
  constructor
  · intro field
    induction field with
    | letter known =>
        rcases mem_fieldLetters_iff.1 known with ⟨type, nonvoid, rfl⟩
        exact ⟨_, .primitive type, by simpa using nonvoid⟩
    | className present unterminated => exact ⟨_, .object present unterminated, nofun⟩
    | array _ ih =>
        rcases ih with ⟨element, spells, present⟩
        exact ⟨.array element, .array spells present, nofun⟩
  · rintro ⟨type, spells, present⟩
    induction spells with
    | primitive type =>
        exact .letter (mem_fieldLetters_iff.2 ⟨type, by simpa using present, rfl⟩)
    | object filled unterminated => exact .className filled unterminated
    | array _ nonvoid ih => exact .array (ih nonvoid)

/-- A return type may be `void` as well. -/
theorem isField_or_void_iff {text : List Char} :
    IsField text ∨ text = ['V'] ↔ ∃ type, Spells text type := by
  constructor
  · rintro (field | rfl)
    · rcases isField_iff.1 field with ⟨type, spells, _⟩
      exact ⟨type, spells⟩
    · exact ⟨.void, .primitive .void⟩
  · rintro ⟨type, spells⟩
    by_cases void : type = .void
    · subst void
      cases spells
      exact .inr rfl
    · exact .inl (isField_iff.2 ⟨type, spells, void⟩)

/-- Members that each spell some parameter spell some list of parameters, and the other way
round. -/
theorem forall_isField_iff {texts : List (List Char)} :
    (∀ text ∈ texts, IsField text) ↔ ∃ params, List.Forall₂ SpellsParam texts params := by
  induction texts with
  | nil => simp
  | cons text rest ih =>
      rw [List.forall_mem_cons, ih, isField_iff]
      constructor
      · rintro ⟨⟨param, spells⟩, params, others⟩
        exact ⟨param :: params, .cons spells others⟩
      · rintro ⟨params, spelled⟩
        cases spelled with
        | cons spells others => exact ⟨⟨_, spells⟩, _, others⟩

theorem isDescriptor_iff {text : List Char} :
    IsDescriptor text ↔ ∃ signature, SpellsSignature text signature := by
  constructor
  · rintro ⟨fields, returned⟩
    rcases forall_isField_iff.1 fields with ⟨params, spelledParams⟩
    rcases isField_or_void_iff.1 returned with ⟨returns, spells⟩
    exact ⟨⟨returns, params⟩, .mk spelledParams spells⟩
  · rintro ⟨_, ⟨spelledParams, spells⟩⟩
    exact .mk (forall_isField_iff.2 ⟨_, spelledParams⟩) (isField_or_void_iff.2 ⟨_, spells⟩)

/-! ## What is spelled can be written -/

theorem Spells.describable {text : List Char} {type : JvmType} (spells : Spells text type) :
    type.Describable := by
  induction spells with
  | primitive => trivial
  | @object name present unterminated =>
      refine ⟨?_, ?_, ?_⟩
      · simpa [dotted] using present
      · rw [String.toList_ofList]
        exact semicolon_not_mem_dotted unterminated
      · rw [String.toList_ofList]
        exact slash_not_mem_dotted name
  | array _ present ih => exact ⟨present, ih⟩

/-- Writing what a text spells gives the text with slashes for its dots. -/
theorem Spells.encodeType_eq {text : List Char} {type : JvmType} (spells : Spells text type) :
    encodeType type = slashed text := by
  induction spells with
  | primitive type => cases type <;> rfl
  | object =>
      rw [encodeType, String.toList_ofList, slashed_dotted, slashed_append]
      rfl
  | array _ _ ih =>
      rw [encodeType, ih]
      rfl

theorem flatMap_encodeType_eq {pieces : List (List Char)} {params : List JvmType}
    (spelled : List.Forall₂ SpellsParam pieces params) :
    params.flatMap encodeType = slashed pieces.flatten := by
  induction spelled with
  | nil => rfl
  | cons head _ ih =>
      rw [List.flatMap_cons, head.1.encodeType_eq, ih, List.flatten_cons, slashed_append]

theorem forall_describable {pieces : List (List Char)} {params : List JvmType}
    (spelled : List.Forall₂ SpellsParam pieces params) :
    ∀ param ∈ params, param ≠ .void ∧ param.Describable := by
  induction spelled with
  | nil => simp
  | cons head _ ih =>
      rcases head with ⟨spells, present⟩
      exact List.forall_mem_cons.2 ⟨⟨present, spells.describable⟩, ih⟩

theorem SpellsSignature.describable {text : List Char} {signature : Signature}
    (spelled : SpellsSignature text signature) : signature.Describable := by
  rcases spelled with ⟨spelledParams, spells⟩
  exact ⟨spells.describable, forall_describable spelledParams⟩

theorem SpellsSignature.encodeChars_eq {text : List Char} {signature : Signature}
    (spelled : SpellsSignature text signature) : encodeChars signature = slashed text := by
  rcases spelled with ⟨spelledParams, spells⟩
  rw [encodeChars, flatMap_encodeType_eq spelledParams, spells.encodeType_eq, slashed_append]
  rfl

/-- Writing what was read gives the descriptor with slashes for its dots. -/
theorem encode_of_decode {descriptor : String} {signature : Signature}
    (read : decode openContext descriptor = .ok signature) :
    encode signature = String.ofList (slashed descriptor.toList) := by
  rw [encode, (decode_openContext_eq_ok_iff.1 read).encodeChars_eq]

/-- A signature that was read is read again from what it is written as. -/
theorem decode_encode_of_decode {descriptor : String} {signature : Signature}
    (read : decode openContext descriptor = .ok signature) :
    decode openContext (encode signature) = .ok signature :=
  decode_openContext_encode (decode_openContext_eq_ok_iff.1 read).describable

/-- Exactly the texts of the grammar are read. What is read is written as the text with slashes for
its dots, and two texts are read as the same signature exactly when they agree up to dots and
slashes. -/
theorem decodeOpen_grammar (descriptor : String) :
    ((∃ signature, decodeOpen descriptor = .ok signature) ↔ IsDescriptor descriptor.toList) ∧
      (∀ signature, decodeOpen descriptor = .ok signature →
        encode signature = String.ofList (slashed descriptor.toList)) ∧
      ∀ (other : String) (first second : Signature), decodeOpen descriptor = .ok first →
        decodeOpen other = .ok second →
        (first = second ↔ slashed descriptor.toList = slashed other.toList) := by
  refine ⟨?_, fun signature read => encode_of_decode read, ?_⟩
  · rw [isDescriptor_iff]
    exact exists_congr fun signature => decode_openContext_eq_ok_iff
  · intro other first second read otherRead
    have written := encode_of_decode read
    have otherWritten := encode_of_decode otherRead
    constructor
    · rintro rfl
      exact String.ofList_inj.1 (written.symm.trans otherWritten)
    · intro same
      have again := decode_encode_of_decode read
      rw [written, same, ← otherWritten, decode_encode_of_decode otherRead] at again
      exact (Except.ok.inj again).symm

/-- Dots and slashes may be mixed. -/
example : decodeOpen "([La.b/C;J)V" =
    .ok ⟨.void, [.array (.object "a.b.C"), .primitive .long]⟩ := by
  cbv

end ApiCoverage.Descriptor
