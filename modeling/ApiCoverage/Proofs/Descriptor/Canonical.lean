import ApiCoverage.Proofs.Descriptor.Grammar

/-!
# The descriptors that compiled code uses

Class names in a descriptor may be spelled with dots, and reading does not tell the spellings apart.
Writing always uses slashes, so of all the descriptors of a signature one is canonical: the one
without dots.
-/

namespace ApiCoverage.Descriptor

/-- Writing what is read from the descriptor gives the descriptor. -/
def Canonical (descriptor : String) : Prop :=
  ∃ signature, decodeOpen descriptor = .ok signature ∧ encode signature = descriptor

/-! ## Dots -/

/-- A text is its own spelling with slashes when it holds no dot. -/
theorem slashed_eq_self_iff {chars : List Char} : slashed chars = chars ↔ '.' ∉ chars := by
  constructor
  · intro same
    rw [← same]
    exact dot_not_mem_slashed chars
  · exact slashed_eq_self

theorem dot_not_mem_encodeType (type : JvmType) : '.' ∉ encodeType type := by
  induction type with
  | primitive type => cases type <;> decide
  | object name =>
      simp [encodeType, dot_not_mem_slashed]
  | array element ih =>
      simp [encodeType, ih]

/-- What is written holds no dot. -/
theorem dot_not_mem_encode (signature : Signature) : '.' ∉ (encode signature).toList := by
  simp [encode, encodeChars, dot_not_mem_encodeType]

/-! ## Canonical descriptors -/

variable {descriptor other : String} {signature : Signature}

/-- A descriptor that is read is canonical when it holds no dot. -/
theorem encode_eq_self_iff (read : decodeOpen descriptor = .ok signature) :
    encode signature = descriptor ↔ '.' ∉ descriptor.toList := by
  rw [encode_of_decode read, ← slashed_eq_self_iff]
  constructor
  · intro same
    rw [← String.toList_inj, String.toList_ofList] at same
    exact same
  · intro same
    rw [same, String.ofList_toList]

theorem canonical_iff_of_decodeOpen (read : decodeOpen descriptor = .ok signature) :
    Canonical descriptor ↔ '.' ∉ descriptor.toList := by
  rw [← encode_eq_self_iff read]
  constructor
  · rintro ⟨found, again, same⟩
    cases Except.ok.inj (read.symm.trans again)
    exact same
  · intro same
    exact ⟨signature, read, same⟩

/-- Canonical descriptors of the same signature are equal. -/
theorem Canonical.eq_of_decodeOpen (canonical : Canonical descriptor)
    (otherCanonical : Canonical other) (read : decodeOpen descriptor = .ok signature)
    (otherRead : decodeOpen other = .ok signature) : descriptor = other := by
  rcases canonical with ⟨_, again, same⟩
  rcases otherCanonical with ⟨_, otherAgain, otherSame⟩
  cases Except.ok.inj (read.symm.trans again)
  cases Except.ok.inj (otherRead.symm.trans otherAgain)
  exact same.symm.trans otherSame

end ApiCoverage.Descriptor
