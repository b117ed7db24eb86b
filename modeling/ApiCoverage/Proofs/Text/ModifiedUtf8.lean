import ApiCoverage.Proofs.Bytes
import ApiCoverage.Proofs.Text.Utf16

/-!
# Texts read back from either of their encodings

A text has a standard encoding and, for class files, a variant of it. They differ on NUL and on the
characters beyond the basic plane. The decoder tries the standard reading first, so the variant of one
text must not be the standard encoding of another. It never is: the group reader gives every text back
from its variant, and from a standard encoding it gives the encoded text or nothing.
-/

namespace ApiCoverage.Text.ModifiedUtf8

/-! ## The high bits of a byte -/

theorem toNat_ofNat_of_lt {value : Nat} (small : value < 0x100) :
    (UInt8.ofNat value).toNat = value := by
  rw [UInt8.toNat_ofNat', Nat.mod_eq_of_lt small]

theorem forall_byte {holds : UInt8 → Prop} (each : ∀ value : Fin 256, holds (UInt8.ofFin value))
    (byte : UInt8) : holds byte :=
  each byte.toFin

theorem isSingle_iff (byte : UInt8) : (byte &&& 0x80 == 0) = true ↔ byte.toNat / 0x80 = 0 := by
  revert byte
  exact forall_byte (by decide +kernel)

theorem leadsTwo_iff (byte : UInt8) : (byte &&& 0xE0 == 0xC0) = true ↔ byte.toNat / 0x20 = 6 := by
  revert byte
  exact forall_byte (by decide +kernel)

theorem leadsThree_iff (byte : UInt8) :
    (byte &&& 0xF0 == 0xE0) = true ↔ byte.toNat / 0x10 = 14 := by
  revert byte
  exact forall_byte (by decide +kernel)

theorem isContinuation_iff (byte : UInt8) : isContinuation byte = true ↔ byte.toNat / 0x40 = 2 := by
  revert byte
  exact forall_byte (by decide +kernel)

/-! ## Groups of bytes -/

section Groups

variable {code : Nat} (done : List UInt16) (rest : Bytes)

theorem unitsOnto_one (small : code < 0x80) :
    unitsOnto done (UInt8.ofNat code :: rest) = unitsOnto (UInt16.ofNat code :: done) rest := by
  have lead : (UInt8.ofNat code).toNat = code :=
    toNat_ofNat_of_lt (by omega)
  have single : ((UInt8.ofNat code) &&& 0x80 == 0) = true := by
    rw [isSingle_iff, lead]
    omega
  rw [unitsOnto.eq_def]
  simp only [if_pos single, lead]

theorem unitsOnto_two (small : code < 0x800) :
    unitsOnto done
        (UInt8.ofNat (0xC0 + code / 0x40) :: UInt8.ofNat (0x80 + code % 0x40) :: rest) =
      unitsOnto (UInt16.ofNat code :: done) rest := by
  have lead : (UInt8.ofNat (0xC0 + code / 0x40)).toNat = 0xC0 + code / 0x40 :=
    toNat_ofNat_of_lt (by omega)
  have second : (UInt8.ofNat (0x80 + code % 0x40)).toNat = 0x80 + code % 0x40 :=
    toNat_ofNat_of_lt (by omega)
  generalize UInt8.ofNat (0xC0 + code / 0x40) = leadByte at lead
  generalize UInt8.ofNat (0x80 + code % 0x40) = secondByte at second
  have single : ¬ (leadByte &&& 0x80 == 0) = true := by
    rw [isSingle_iff, lead]
    omega
  have two : (leadByte &&& 0xE0 == 0xC0) = true := by
    rw [leadsTwo_iff, lead]
    omega
  have continues : isContinuation secondByte = true := by
    rw [isContinuation_iff, second]
    omega
  have unit : leadByte.toNat % 0x20 * 0x40 + continuationBits secondByte = code := by
    rw [continuationBits, lead, second]
    omega
  rw [unitsOnto, if_neg single, if_pos two]
  simp only [if_pos continues, unit]

theorem unitsOnto_three (small : code < 0x10000) :
    unitsOnto done
        (UInt8.ofNat (0xE0 + code / 0x1000) :: UInt8.ofNat (0x80 + code / 0x40 % 0x40) ::
          UInt8.ofNat (0x80 + code % 0x40) :: rest) =
      unitsOnto (UInt16.ofNat code :: done) rest := by
  have lead : (UInt8.ofNat (0xE0 + code / 0x1000)).toNat = 0xE0 + code / 0x1000 :=
    toNat_ofNat_of_lt (by omega)
  have second : (UInt8.ofNat (0x80 + code / 0x40 % 0x40)).toNat = 0x80 + code / 0x40 % 0x40 :=
    toNat_ofNat_of_lt (by omega)
  have third : (UInt8.ofNat (0x80 + code % 0x40)).toNat = 0x80 + code % 0x40 :=
    toNat_ofNat_of_lt (by omega)
  generalize UInt8.ofNat (0xE0 + code / 0x1000) = leadByte at lead
  generalize UInt8.ofNat (0x80 + code / 0x40 % 0x40) = secondByte at second
  generalize UInt8.ofNat (0x80 + code % 0x40) = thirdByte at third
  have single : ¬ (leadByte &&& 0x80 == 0) = true := by
    rw [isSingle_iff, lead]
    omega
  have two : ¬ (leadByte &&& 0xE0 == 0xC0) = true := by
    rw [leadsTwo_iff, lead]
    omega
  have three : (leadByte &&& 0xF0 == 0xE0) = true := by
    rw [leadsThree_iff, lead]
    omega
  have continues : (isContinuation secondByte && isContinuation thirdByte) = true := by
    rw [Bool.and_eq_true, isContinuation_iff, isContinuation_iff, second, third]
    omega
  have unit : leadByte.toNat % 0x10 * 0x1000 + continuationBits secondByte * 0x40 +
      continuationBits thirdByte = code := by
    rw [continuationBits, continuationBits, lead, second, third]
    omega
  rw [unitsOnto, if_neg single, if_neg two, if_pos three]
  simp only [if_pos continues, unit]

/-- The standard group of a character beyond the basic plane has four bytes, and its first byte starts
no group of the variant. -/
theorem unitsOnto_four (code : Nat) (more : Bytes) :
    unitsOnto done (UInt8.ofNat (code / 262144 % 0x08 + 0xf0) :: more) = none := by
  have lead : (UInt8.ofNat (code / 262144 % 0x08 + 0xf0)).toNat = code / 262144 % 0x08 + 0xf0 :=
    toNat_ofNat_of_lt (by omega)
  generalize UInt8.ofNat (code / 262144 % 0x08 + 0xf0) = leadByte at lead
  have single : ¬ (leadByte &&& 0x80 == 0) = true := by
    rw [isSingle_iff, lead]
    omega
  have two : ¬ (leadByte &&& 0xE0 == 0xC0) = true := by
    rw [leadsTwo_iff, lead]
    omega
  have three : ¬ (leadByte &&& 0xF0 == 0xE0) = true := by
    rw [leadsThree_iff, lead]
    omega
  rw [unitsOnto.eq_def]
  simp only [if_neg single, if_neg two, if_neg three]

/-- The bytes of a code unit are read as the unit. -/
theorem unitsOnto_encodeUnit (unit : UInt16) :
    unitsOnto done (encodeUnit unit ++ rest) = unitsOnto (unit :: done) rest := by
  have bound := unit.toNat_lt
  have same : UInt16.ofNat unit.toNat = unit := UInt16.ofNat_toNat
  simp only [encodeUnit]
  split
  · next one =>
      rw [List.singleton_append, unitsOnto_one done rest (by simp_all), same]
  · split
    · next two =>
        rw [List.cons_append, List.singleton_append, unitsOnto_two done rest two, same]
    · rw [List.cons_append, List.cons_append, List.singleton_append,
        unitsOnto_three done rest bound, same]

/-- The standard bytes of a character are read as its code unit, if it has but one. -/
theorem unitsOnto_standard (char : Char) :
    unitsOnto done (String.utf8EncodeChar char ++ rest) =
      if char.toNat < 0x10000 then unitsOnto (UInt16.ofNat char.toNat :: done) rest else none := by
  have same : char.val.toNat = char.toNat := rfl
  simp only [String.utf8EncodeChar, same]
  generalize char.toNat = code
  split
  · next one =>
      rw [if_pos (by omega)]
      exact unitsOnto_one done rest (by omega)
  · split
    · next two =>
        have lead : code / 64 % 0x20 + 0xC0 = 0xC0 + code / 0x40 := by omega
        rw [if_pos (by omega), lead, Nat.add_comm _ 0x80]
        exact unitsOnto_two done rest (by omega)
    · split
      · next three =>
          have lead : code / 4096 % 0x10 + 0xE0 = 0xE0 + code / 0x1000 := by omega
          rw [if_pos (by omega), lead, Nat.add_comm _ 0x80, Nat.add_comm _ 0x80]
          exact unitsOnto_three done rest (by omega)
      · rw [if_neg (by omega)]
        exact unitsOnto_four done code _

end Groups

theorem unitsOnto_flatMap_encodeUnit (units done : List UInt16) :
    unitsOnto done (units.flatMap encodeUnit) = some (done.reverse ++ units) := by
  induction units generalizing done with
  | nil => simp [unitsOnto]
  | cons unit rest ih =>
      rw [List.flatMap_cons, unitsOnto_encodeUnit, ih]
      simp

/-- The group reader gives a text back from its variant encoding. -/
theorem decodeGroups?_encode (text : String) : decodeGroups? (encode text) = some text := by
  simp [decodeGroups?, encode, unitsOnto_flatMap_encodeUnit, Utf16.decode?_encode]

theorem ofText_eq_flatMap (text : String) :
    Bytes.ofText text = text.toList.flatMap String.utf8EncodeChar := by
  have array := congrArg (fun array : ByteArray => array.data.toList) (Bytes.toArray_ofText text)
  have whole : text.toByteArray = text.toList.utf8Encode := by
    rw [← String.toByteArray_ofList, String.ofList_toList]
  rw [List.toList_toArray, whole, List.utf8Encode, List.toList_data_toByteArray] at array
  exact array

/-- On the standard encoding of some characters the group reader finds their code units or nothing. -/
theorem units_of_standard {chars : List Char} {done units : List UInt16}
    (read : unitsOnto done (chars.flatMap String.utf8EncodeChar) = some units) :
    units = done.reverse ++ Utf16.encode chars := by
  induction chars generalizing done with
  | nil =>
      cases read
      simp [Utf16.encode]
  | cons char rest ih =>
      rw [List.flatMap_cons, unitsOnto_standard] at read
      split at read
      · next basic =>
          rw [ih read]
          simp [Utf16.encode, Utf16.encodeChar_of_basic basic]
      · cases read

/-- From the standard encoding of a text the group reader gives the text or nothing. -/
theorem eq_of_decodeGroups?_ofText {text other : String}
    (read : decodeGroups? (Bytes.ofText text) = some other) : other = text := by
  simp only [decodeGroups?, ofText_eq_flatMap, Option.bind_eq_bind, Option.bind_eq_some_iff,
    Option.pure_def, Option.some.injEq] at read
  rcases read with ⟨units, grouped, chars, decoded, rfl⟩
  rw [units_of_standard grouped, List.reverse_nil, List.nil_append, Utf16.decode?_encode] at decoded
  rw [← Option.some.inj decoded, String.ofList_toList]

/-- The standard reading accepts the standard encoding of the text that it gives. -/
theorem eq_ofText_of_decodeStandard? {bytes : Bytes} {text : String}
    (read : decodeStandard? bytes = some text) : bytes = Bytes.ofText text := by
  unfold decodeStandard? String.fromUTF8? at read
  split at read
  · next valid =>
      cases read
      have whole : (Bytes.ofText (String.fromUTF8 ⟨bytes.toArray⟩ valid)).toArray = bytes.toArray :=
        congrArg ByteArray.data (Bytes.toArray_ofText _)
      exact (congrArg Array.toList whole).symm
  · cases read

/-- A text is read back from its variant encoding. Where the variant is the standard encoding of some
text, it is that of the text itself. -/
theorem decode?_encode (text : String) : decode? (encode text) = some text := by
  unfold decode?
  cases standard : decodeStandard? (encode text) with
  | none => exact decodeGroups?_encode text
  | some other =>
      have grouped := decodeGroups?_encode text
      rw [eq_ofText_of_decodeStandard? standard] at grouped
      rw [eq_of_decodeGroups?_ofText grouped]

example : encode "\x00😀" = [0xC0, 0x80, 0xED, 0xA0, 0xBD, 0xED, 0xB8, 0x80] := by
  decide

end ApiCoverage.Text.ModifiedUtf8
