import ApiCoverage.Proofs.Text.ModifiedUtf8

/-!
# Texts by byte offsets

A text can be looked into by the offsets of its bytes. A slice exists only where the offset is that of a
character boundary; a byte exists at every offset inside the text, and a byte below 128 is always a
character of its own, so that such a character is found by searching for its byte.
-/

namespace ApiCoverage.Text

/-! ## Slices and bytes -/

/-- The text from a byte offset on. There is none unless the offset is that of a character boundary. -/
def sliceFrom? (text : String) (offset : Nat) : Option String :=
  if valid : String.Pos.Raw.IsValid text ⟨offset⟩ then some (text.sliceFrom ⟨_, valid⟩).copy else none

/-- The text up to a byte offset. There is none unless the offset is that of a character boundary. -/
def sliceTo? (text : String) (offset : Nat) : Option String :=
  if valid : String.Pos.Raw.IsValid text ⟨offset⟩ then some (text.sliceTo ⟨_, valid⟩).copy else none

/-- The byte at an offset. -/
def byteAt? (text : String) (offset : Nat) : Option UInt8 :=
  (Bytes.ofText text)[offset]?

/-- The offset of the first byte that is a given letter. -/
def findLetter? (text : String) (letter : Char) : Option Nat :=
  (Bytes.ofText text).idxOf? letter.toUInt8

/-- Some characters are what is left of a text at a byte offset. -/
def StandsAt (text : String) (offset : Nat) (rest : List Char) : Prop :=
  ∃ front : String, text = front ++ String.ofList rest ∧ front.utf8ByteSize = offset

variable {text : String} {offset : Nat} {rest : List Char}

theorem standsAt_zero (text : String) : StandsAt text 0 text.toList :=
  ⟨"", by simp, rfl⟩

theorem StandsAt.skip {char : Char} (stands : StandsAt text offset (char :: rest)) :
    StandsAt text (offset + char.utf8Size) rest := by
  rcases stands with ⟨front, rfl, rfl⟩
  exact ⟨front ++ String.singleton char, by rw [String.ofList_cons, String.append_assoc], by simp⟩

theorem StandsAt.drop {taken : List Char} (stands : StandsAt text offset (taken ++ rest)) :
    StandsAt text (offset + (String.ofList taken).utf8ByteSize) rest := by
  rcases stands with ⟨front, rfl, rfl⟩
  exact ⟨front ++ String.ofList taken, by rw [String.ofList_append, String.append_assoc],
    String.utf8ByteSize_append⟩

/-- Nothing is left at the end of a text, and only there. -/
theorem StandsAt.eq_utf8ByteSize_iff (stands : StandsAt text offset rest) :
    offset = text.utf8ByteSize ↔ rest = [] := by
  rcases stands with ⟨front, rfl, rfl⟩
  rw [String.utf8ByteSize_append, eq_comm, Nat.add_eq_left, String.utf8ByteSize_eq_zero_iff]
  simp

/-- Where some characters are left, there is a character boundary. -/
theorem StandsAt.exists_splits (stands : StandsAt text offset rest) :
    ∃ (place : text.Pos) (front : String), place.offset = ⟨offset⟩ ∧
      place.Splits front (String.ofList rest) := by
  rcases stands with ⟨front, whole, rfl⟩
  have splits := String.Pos.splits_ofEqAppend whole
  exact ⟨_, front, splits.offset_eq_rawEndPos, splits⟩

theorem StandsAt.sliceFrom?_eq (stands : StandsAt text offset rest) :
    sliceFrom? text offset = some (String.ofList rest) := by
  rcases stands.exists_splits with ⟨place, front, found, splits⟩
  have valid := place.isValid
  rw [found] at valid
  have same : place = ⟨_, valid⟩ := String.Pos.ext found
  rw [same] at splits
  rw [sliceFrom?, dif_pos valid, splits.copy_sliceFrom_eq]

theorem sliceTo?_append (front back : String) :
    sliceTo? (front ++ back) front.utf8ByteSize = some front := by
  have splits := String.Pos.splits_ofEqAppend (rfl : front ++ back = front ++ back)
  have valid := (String.Pos.ofEqAppend (rfl : front ++ back = front ++ back)).isValid
  rw [splits.offset_eq_rawEndPos] at valid
  have same : String.Pos.ofEqAppend (rfl : front ++ back = front ++ back) = ⟨_, valid⟩ :=
    String.Pos.ext splits.offset_eq_rawEndPos
  rw [same] at splits
  exact (dif_pos valid).trans (congrArg some splits.copy_sliceTo_eq)

/-- The character at a character boundary is the first one of those that are left. -/
theorem StandsAt.exists_get_eq {char : Char} (stands : StandsAt text offset (char :: rest)) :
    ∃ (place : text.Pos) (inside : place ≠ text.endPos),
      place.offset.byteIdx = offset ∧ place.get inside = char := by
  rcases stands.exists_splits with ⟨place, front, found, splits⟩
  rw [String.ofList_cons] at splits
  have inside := splits.ne_endPos_of_singleton
  rcases splits.exists_eq_singleton_append inside with ⟨behind, same⟩
  rw [← String.toList_inj] at same
  simp only [String.toList_append, String.toList_singleton, List.singleton_append, List.cons.injEq] at same
  exact ⟨place, inside, congrArg String.Pos.Raw.byteIdx found, same.1.symm⟩

/-! ## Bytes that are characters -/

theorem ofText_append (first second : String) :
    Bytes.ofText (first ++ second) = Bytes.ofText first ++ Bytes.ofText second := by
  simp only [ModifiedUtf8.ofText_eq_flatMap, String.toList_append, List.flatMap_append]

theorem ofText_ofList_cons (char : Char) (rest : List Char) :
    Bytes.ofText (String.ofList (char :: rest)) =
      String.utf8EncodeChar char ++ Bytes.ofText (String.ofList rest) := by
  simp only [ModifiedUtf8.ofText_eq_flatMap, String.toList_ofList, List.flatMap_cons]

theorem length_ofText (text : String) : (Bytes.ofText text).length = text.utf8ByteSize :=
  congrArg ByteArray.size (Bytes.toArray_ofText text)

variable {letter char : Char}

/-- The bytes of a character that takes more than one of them are all beyond those of the letters. -/
theorem le_of_mem_utf8EncodeChar (wide : char.utf8Size ≠ 1) :
    ∀ byte ∈ String.utf8EncodeChar char, 0x80 ≤ byte.toNat := by
  rw [Ne, Char.utf8Size_eq_one_iff, UInt32.le_iff_toNat_le] at wide
  intro byte member
  rw [String.utf8EncodeChar, if_neg (by simpa using wide)] at member
  split at member
  · simp only [List.mem_cons, List.not_mem_nil, or_false] at member
    rcases member with rfl | rfl <;> simp <;> omega
  split at member
  · simp only [List.mem_cons, List.not_mem_nil, or_false] at member
    rcases member with rfl | rfl | rfl <;> simp <;> omega
  · simp only [List.mem_cons, List.not_mem_nil, or_false] at member
    rcases member with rfl | rfl | rfl | rfl <;> simp <;> omega

theorem toNat_toUInt8 (single : char.utf8Size = 1) : char.toUInt8.toNat = char.val.toNat := by
  rw [Char.utf8Size_eq_one_iff, UInt32.le_iff_toNat_le] at single
  rw [Char.toUInt8, UInt32.toNat_toUInt8, Nat.mod_eq_of_lt]
  exact Nat.lt_of_le_of_lt single (by decide)

/-- A letter is one of the bytes of a character only if it is the character. -/
theorem toUInt8_mem_utf8EncodeChar_iff (single : letter.utf8Size = 1) :
    letter.toUInt8 ∈ String.utf8EncodeChar char ↔ char = letter := by
  constructor
  · intro member
    by_cases narrow : char.utf8Size = 1
    · rw [String.utf8EncodeChar_eq_singleton narrow, List.mem_singleton] at member
      have same := congrArg UInt8.toNat member
      rw [toNat_toUInt8 single] at same
      exact (Char.ext (UInt32.toNat_inj.1 (same.trans (toNat_toUInt8 narrow)))).symm
    · have beyond := le_of_mem_utf8EncodeChar narrow _ member
      rw [toNat_toUInt8 single] at beyond
      rw [Char.utf8Size_eq_one_iff, UInt32.le_iff_toNat_le] at single
      exact absurd (Nat.le_trans beyond single) (by decide)
  · rintro rfl
    rw [String.utf8EncodeChar_eq_singleton single]
    exact List.mem_singleton_self _

theorem StandsAt.byteAt?_eq (stands : StandsAt text offset rest) :
    byteAt? text offset = (Bytes.ofText (String.ofList rest)).head? := by
  rcases stands with ⟨front, rfl, rfl⟩
  rw [byteAt?, ofText_append, ← length_ofText, List.getElem?_append_right (Nat.le_refl _),
    Nat.sub_self, List.head?_eq_getElem?]

/-- There is no byte where nothing is left. -/
theorem StandsAt.byteAt?_nil (stands : StandsAt text offset []) : byteAt? text offset = none := by
  rw [stands.byteAt?_eq]
  simp [ModifiedUtf8.ofText_eq_flatMap]

/-- The byte at a character boundary is that of a letter only if the character is the letter. -/
theorem StandsAt.exists_byteAt? (stands : StandsAt text offset (char :: rest)) :
    ∃ byte, byteAt? text offset = some byte ∧
      ∀ letter : Char, letter.utf8Size = 1 → (byte = letter.toUInt8 ↔ char = letter) := by
  rw [stands.byteAt?_eq, ofText_ofList_cons]
  cases encoded : String.utf8EncodeChar char with
  | nil => exact absurd encoded String.utf8EncodeChar_ne_nil
  | cons byte others =>
      refine ⟨byte, rfl, fun letter single => ⟨?_, ?_⟩⟩
      · rintro rfl
        rw [← toUInt8_mem_utf8EncodeChar_iff single, encoded]
        exact List.mem_cons_self
      · rintro rfl
        rw [String.utf8EncodeChar_eq_singleton single] at encoded
        exact (List.cons.inj encoded).1.symm

/-- A letter is found in front of what its first occurrence leaves of the text. -/
theorem findLetter?_ofList (single : letter.utf8Size = 1) (chars : List Char) :
    findLetter? (String.ofList chars) letter =
      if letter ∈ chars then
        some (String.ofList (chars.takeWhile (· != letter))).utf8ByteSize
      else none := by
  induction chars with
  | nil => simp [findLetter?, ModifiedUtf8.ofText_eq_flatMap]
  | cons char rest ih =>
      rw [findLetter?, List.idxOf?] at ih
      rw [findLetter?, List.idxOf?, ofText_ofList_cons, List.findIdx?_append, ih,
        String.length_utf8EncodeChar]
      by_cases found : char = letter
      · subst found
        rw [String.utf8EncodeChar_eq_singleton single]
        simp
      · have absent : (String.utf8EncodeChar char).findIdx? (· == letter.toUInt8) = none :=
          List.idxOf?_eq_none_iff.2 fun member =>
            found ((toUInt8_mem_utf8EncodeChar_iff single).1 member)
        have passes : (char != letter) = true := bne_iff_ne.2 found
        rw [absent, List.takeWhile_cons, passes]
        by_cases behind : letter ∈ rest
        · simp [behind, String.ofList_cons, Nat.add_comm]
        · simp [behind, Ne.symm found]

end ApiCoverage.Text
