import ApiCoverage.Proofs.Descriptor.Spelling

/-!
# Where a descriptor ends

Every part of a descriptor shows where it ends: a class name at its semicolon, an array at the end of its
element, the parameters at their parenthesis. Thus a descriptor that is cut anywhere lacks something, and
one that is followed by anything has too much. In either case the reader says so, and no descriptor is the
beginning of another.
-/

namespace ApiCoverage.Descriptor

/-! ## Cut texts -/

/-- What is cut off a spelled type before its end is missed, in every context. -/
theorem Spells.decodeType_cut {text kept : List Char} {type : JvmType} (spells : Spells text type)
    (context : Context) (descriptor : String) (depth offset : Nat) (cut : kept <+: text)
    (proper : kept ≠ text) :
    decodeType context descriptor depth offset kept = .error (.truncated descriptor) := by
  -- Every type begins with a character that is read first, so an empty text lacks it.
  induction spells generalizing depth offset kept with
  | primitive type =>
      rcases List.prefix_cons_iff.1 cut with rfl | ⟨rest, rfl, empty⟩
      · rfl
      · rw [List.prefix_nil.1 empty] at proper
        exact absurd rfl proper
  | @object name present unterminated =>
      rcases List.prefix_cons_iff.1 cut with rfl | ⟨rest, rfl, inside⟩
      · rfl
      · rcases List.prefix_concat_iff.1 inside with rfl | within
        · exact absurd rfl proper
        · have lacking : ';' ∉ rest := fun member => unterminated (within.subset member)
          rw [decodeType, decodeClassName_unterminated descriptor _ lacking]
          rfl
  | @array element type spells present ih =>
      rcases List.prefix_cons_iff.1 cut with rfl | ⟨rest, rfl, inside⟩
      · rfl
      · rw [decodeType]
        exact ih _ _ inside fun same => proper (congrArg _ same)

/-- Parameters that no parenthesis closes are cut, wherever the cut is. -/
theorem decodeParams_cut (descriptor : String) {pieces : List (List Char)} {params : List JvmType}
    (spelled : List.Forall₂ SpellsParam pieces params) (done : List JvmType) (offset : Nat)
    {kept : List Char} (cut : kept <+: pieces.flatten) :
    decodeParams openContext descriptor done offset kept = .error (.truncated descriptor) := by
  induction spelled generalizing done offset kept with
  | nil =>
      rw [List.prefix_nil.1 cut, decodeParams]
  | @cons piece param pieces params head _ ih =>
      rcases head with ⟨spells, present⟩
      rcases spells.exists_eq_cons with ⟨first, tail, shape, opens⟩
      rw [List.flatten_cons] at cut
      by_cases whole : piece <+: kept
      · -- The piece is kept as a whole, so the cut is in one of those behind it.
        rcases whole with ⟨behind, rfl⟩
        have read := spells.decodeType_append descriptor 0 offset (by omega) behind
        rw [shape, List.cons_append] at read ⊢
        rw [decodeParams_cons opens read present]
        exact ih _ _ ((List.prefix_append_right_inj piece).1 cut)
      · have within : kept <+: piece :=
          (List.prefix_or_prefix_of_prefix cut (List.prefix_append _ _)).resolve_right whole
        have proper : kept ≠ piece := by
          rintro rfl
          exact whole (List.prefix_refl _)
        have lacking := spells.decodeType_cut openContext descriptor 0 offset within proper
        rw [shape] at within
        rcases List.prefix_cons_iff.1 within with rfl | ⟨rest, rfl, _⟩
        · rw [decodeParams]
        · rw [decodeParams_eq_bind opens, lacking]
          rfl

/-- A descriptor that is cut before its end is missing something. -/
theorem SpellsSignature.decode_cut {text : List Char} {signature : Signature}
    (spelled : SpellsSignature text signature) {kept : String} (cut : kept.toList <+: text)
    (proper : kept.toList ≠ text) :
    decode openContext kept = .error (.truncated kept) := by
  rcases spelled with @⟨pieces, params, returns, type, spelledParams, spells⟩
  rw [decode]
  rcases List.prefix_cons_iff.1 cut with empty | ⟨inside, shape, cut⟩
  · rw [empty]
  · rw [shape] at proper ⊢
    rcases List.prefix_or_prefix_of_prefix cut (List.prefix_append _ _) with within | ⟨behind, rfl⟩
    · simp only [decodeParams_cut kept spelledParams [] 1 within]
      rfl
    · rcases List.prefix_cons_iff.1 ((List.prefix_append_right_inj _).1 cut) with
        rfl | ⟨left, rfl, cutReturns⟩
      · simp only [List.append_nil, decodeParams_cut kept spelledParams [] 1 (List.prefix_refl _)]
        rfl
      · have lacking := spells.decodeType_cut openContext kept 0 (1 + byteLength pieces.flatten + 1)
          cutReturns fun same => proper (by rw [same]; rfl)
        simp only [decodeParams_flatten kept spelledParams [] 1 left, bind, Except.bind, lacking]

/-! ## Both ends -/

/-- Whatever is cut off a descriptor is missed, and whatever follows it is too much; thus no descriptor is
the beginning of another one. -/
theorem decodeOpen_ends {descriptor : String} {signature : Signature}
    (read : decodeOpen descriptor = .ok signature) :
    (∀ kept lost, descriptor = kept ++ lost → lost ≠ "" →
      decodeOpen kept = .error (.truncated kept)) ∧
    (∀ more, more ≠ "" → decodeOpen (descriptor ++ more) =
      .error (.unexpected (descriptor ++ more) .endOfDescriptor descriptor.utf8ByteSize)) ∧
    ∀ other more, decodeOpen (descriptor ++ more) = .ok other → more = "" := by
  have spelled := decode_openContext_eq_ok_iff.1 read
  have followed : ∀ more, more ≠ "" → decodeOpen (descriptor ++ more) =
      .error (.unexpected (descriptor ++ more) .endOfDescriptor descriptor.utf8ByteSize) := by
    intro more present
    have some : more.toList.isEmpty = false := by simpa using present
    rw [decodeOpen, spelled.decode_append String.toList_append, some, byteLength_toList]
    rfl
  refine ⟨?_, followed, ?_⟩
  · intro kept lost split present
    subst split
    rw [String.toList_append] at spelled
    refine spelled.decode_cut (List.prefix_append _ _) ?_
    intro same
    exact present (by simpa using same)
  · intro other more readOther
    by_contra present
    rw [followed more present] at readOther
    cases readOther

/-- The signature of `([La/😀;)J`, which is cut inside the class name and followed by another letter. -/
theorem decodeOpen_ends_arrayOfClass :
    decodeOpen "([La/😀;)J" = .ok ⟨.primitive .long, [.array (.object "a.😀")]⟩ ∧
      decodeOpen "([La/😀" = .error (.truncated "([La/😀") ∧
      decodeOpen "([La/😀;)JI" = .error (.unexpected "([La/😀;)JI" .endOfDescriptor 12) := by
  have read : decodeOpen "([La/😀;)J" = .ok ⟨.primitive .long, [.array (.object "a.😀")]⟩ := by
    decide +kernel
  rcases decodeOpen_ends read with ⟨cut, followed, _⟩
  exact ⟨read, cut _ ";)J" rfl (by decide), followed "I" (by decide)⟩

end ApiCoverage.Descriptor
