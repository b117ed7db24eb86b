import ApiCoverage.Bytes
import ApiCoverage.Text.ModifiedUtf8

/-!
# Words and texts read back from their bytes

Writing a word of two, four or eight bytes and reading the bytes as a number gives the word again, and
the standard bytes of a text are a text that the decoder of class file constants accepts as it is.
The size of a word's bytes does not depend on the word.
-/

namespace ApiCoverage.Bytes

@[simp]
theorem length_ofUInt16 (word : UInt16) : (ofUInt16 word).length = 2 :=
  rfl

@[simp]
theorem length_ofUInt32 (word : UInt32) : (ofUInt32 word).length = 4 :=
  rfl

@[simp]
theorem toUInt16_ofUInt16 (word : UInt16) : toUInt16 (ofUInt16 word) = word := by
  apply UInt16.toNat_inj.1
  have bound := word.toNat_lt
  simp only [toUInt16, toNat, ofUInt16, List.foldl_cons, List.foldl_nil, UInt16.toNat_ofNat',
    UInt16.toNat_toUInt8, UInt16.toNat_shiftRight, Nat.shiftRight_eq_div_pow, UInt16.reduceToNat,
    Nat.reduceMod, Nat.reducePow]
  omega

/-- Two bytes are those of the word that they denote. -/
theorem ofUInt16_toUInt16 {bytes : Bytes} (two : bytes.length = 2) :
    ofUInt16 (toUInt16 bytes) = bytes := by
  rcases bytes with _ | ⟨first, _ | ⟨second, _ | _⟩⟩
  case cons.cons.nil =>
    have firstBound := first.toNat_lt
    have secondBound := second.toNat_lt
    simp only [ofUInt16, List.cons.injEq, ← UInt8.toNat_inj, toUInt16, toNat, List.foldl_cons,
      List.foldl_nil, UInt16.toNat_toUInt8, UInt16.toNat_shiftRight, UInt16.toNat_ofNat',
      Nat.shiftRight_eq_div_pow, UInt16.reduceToNat, Nat.reduceMod, Nat.reducePow, and_true]
    omega
  all_goals cases two

@[simp]
theorem toUInt32_ofUInt32 (word : UInt32) : toUInt32 (ofUInt32 word) = word := by
  apply UInt32.toNat_inj.1
  have bound := word.toNat_lt
  simp only [toUInt32, toNat, ofUInt32, List.foldl_cons, List.foldl_nil, UInt32.toNat_ofNat',
    UInt32.toNat_toUInt8, UInt32.toNat_shiftRight, Nat.shiftRight_eq_div_pow, UInt32.reduceToNat,
    Nat.reduceMod, Nat.reducePow]
  omega

/-- Four bytes are those of the word that they denote. -/
theorem ofUInt32_toUInt32 {bytes : Bytes} (four : bytes.length = 4) :
    ofUInt32 (toUInt32 bytes) = bytes := by
  rcases bytes with _ | ⟨first, _ | ⟨second, _ | ⟨third, _ | ⟨fourth, _ | _⟩⟩⟩⟩
  case cons.cons.cons.cons.nil =>
    have firstBound := first.toNat_lt
    have secondBound := second.toNat_lt
    have thirdBound := third.toNat_lt
    have fourthBound := fourth.toNat_lt
    simp only [ofUInt32, List.cons.injEq, ← UInt8.toNat_inj, toUInt32, toNat, List.foldl_cons,
      List.foldl_nil, UInt32.toNat_toUInt8, UInt32.toNat_shiftRight, UInt32.toNat_ofNat',
      Nat.shiftRight_eq_div_pow, UInt32.reduceToNat, Nat.reduceMod, Nat.reducePow, and_true]
    omega
  all_goals cases four

@[simp]
theorem toUInt64_ofUInt64 (word : UInt64) : toUInt64 (ofUInt64 word) = word := by
  apply UInt64.toNat_inj.1
  have bound := word.toNat_lt
  simp only [toUInt64, toNat, ofUInt64, List.foldl_cons, List.foldl_nil, UInt64.toNat_ofNat',
    UInt64.toNat_toUInt8, UInt64.toNat_shiftRight, Nat.shiftRight_eq_div_pow, UInt64.reduceToNat,
    Nat.reduceMod, Nat.reducePow]
  omega

/-- The walk that lists a byte array adds the bytes from its position on. -/
private theorem toListLoop_eq (array : ByteArray) (position : Nat) (done : Bytes) :
    ByteArray.toList.loop array position done =
      done.reverse ++ array.data.toList.drop position := by
  fun_induction ByteArray.toList.loop array position done with
  | case1 position done inside ih =>
      have bound : position < array.data.toList.length := inside
      have byte : array.get! position = array.data.toList[position] := by
        change array.data[position]! = _
        rw [getElem!_pos array.data position bound, Array.getElem_toList]
      rw [ih, List.drop_eq_getElem_cons bound, byte]
      simp
  | case2 position done outside =>
      have past : array.data.toList.length ≤ position := Nat.le_of_not_lt outside
      rw [List.drop_eq_nil_of_le past, List.append_nil]

theorem toArray_ofText (text : String) :
    (⟨(ofText text).toArray⟩ : ByteArray) = text.toByteArray := by
  have whole : ofText text = text.toByteArray.data.toList :=
    (toListLoop_eq text.toByteArray 0 []).trans (by simp)
  rw [whole]

theorem decodeStandard?_ofText (text : String) :
    Text.ModifiedUtf8.decodeStandard? (ofText text) = some text := by
  rw [Text.ModifiedUtf8.decodeStandard?, toArray_ofText, String.fromUTF8?, dif_pos text.isValidUTF8]
  rfl

/-- The decoder of class file constants reads the standard bytes of a text as that text. -/
@[simp]
theorem decode?_ofText (text : String) : Text.ModifiedUtf8.decode? (ofText text) = some text := by
  rw [Text.ModifiedUtf8.decode?, decodeStandard?_ofText]

end ApiCoverage.Bytes
