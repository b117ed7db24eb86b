import ApiCoverage.Proofs.ClassFile.Reading
import ApiCoverage.Proofs.Text.ModifiedUtf8

/-!
# Constants read back from their bytes

Each of the seventeen kinds of constant is read back from the bytes that it is written as. The only
condition is on texts, whose length is written in two bytes. A text can be written in several ways,
in standard bytes or in others that the decoder takes for it, and is read back from each of them.
-/

namespace ApiCoverage.ClassFile.Constant

open Reader

/-- The length of a text constant can be written in two bytes. -/
def IsShort : Constant → Prop
  | utf8 text => (Bytes.ofText text).length ≤ 65535
  | _ => True

instance : DecidablePred IsShort := fun constant =>
  match constant with
  | utf8 text => inferInstanceAs (Decidable ((Bytes.ofText text).length ≤ 65535))
  | integer _ | float _ | long _ | double _ | classReference _ | string _ | fieldReference _ _
  | methodReference _ _ | interfaceMethodReference _ _ | nameAndType _ _ | methodHandle _ _
  | methodType _ | dynamic _ _ | invokeDynamic _ _ | moduleName _ | packageName _ => isTrue trivial

theorem reads_pair (part : Part) (make : UInt16 → UInt16 → Constant) (first second : UInt16) :
    (readPair part make).Reads (Bytes.ofUInt16 first ++ Bytes.ofUInt16 second)
      (make first second) :=
  (reads_word part first).bind ((reads_word part second).bind_pure (make first))

theorem reads_block {part : Part} {size : Nat} {bytes : Bytes} {make : Bytes → Constant}
    {constant : Constant} (size_eq : bytes.length = size) (made : make bytes = constant) :
    (readBlock part size make).Reads bytes constant :=
  made ▸ (reads_take_of_length size_eq).bind_pure make

/-- The payload of a text is the length of some bytes that are decoded as the text, and these
bytes. -/
theorem reads_text (slot : Nat) {text : String} {bytes : Bytes} (short : bytes.length ≤ 65535)
    (spelled : Text.ModifiedUtf8.decode? bytes = some text) :
    (readText slot).Reads (Bytes.ofUInt16 (UInt16.ofNat bytes.length) ++ bytes) (utf8 text) := by
  have size := (toNat_ofNat_of_le short).symm
  apply (reads_word _ _).bind
  intro offset rest
  rw [(reads_take_of_length size).bind_apply, spelled]
  rfl

/-- The payload behind the tag of a constant is read as the constant. -/
theorem reads_payload (slot : Nat) {constant : Constant} (short : constant.IsShort) :
    (readPayload slot constant.tag).Reads constant.payload constant := by
  cases constant with
  | utf8 text => exact reads_text slot short (Bytes.decode?_ofText text)
  | integer bits =>
      exact reads_block rfl (congrArg integer (Bytes.toUInt32_ofUInt32 bits))
  | float bits =>
      exact reads_block rfl (congrArg float (Bytes.toUInt32_ofUInt32 bits))
  | long bits =>
      exact reads_block rfl (congrArg long (Bytes.toUInt64_ofUInt64 bits))
  | double bits =>
      exact reads_block rfl (congrArg double (Bytes.toUInt64_ofUInt64 bits))
  | classReference name =>
      exact reads_block rfl (congrArg classReference (Bytes.toUInt16_ofUInt16 name))
  | string text =>
      exact reads_block rfl (congrArg string (Bytes.toUInt16_ofUInt16 text))
  | fieldReference owner member => exact reads_pair _ fieldReference owner member
  | methodReference owner member => exact reads_pair _ methodReference owner member
  | interfaceMethodReference owner member =>
      exact reads_pair _ interfaceMethodReference owner member
  | nameAndType name descriptor => exact reads_pair _ nameAndType name descriptor
  | methodHandle kind reference =>
      exact reads_block rfl (congrArg (methodHandle kind) (Bytes.toUInt16_ofUInt16 reference))
  | methodType descriptor =>
      exact reads_block rfl (congrArg methodType (Bytes.toUInt16_ofUInt16 descriptor))
  | dynamic bootstrap member =>
      exact reads_block rfl
        (congrArg₂ dynamic (Bytes.toUInt16_ofUInt16 bootstrap) (Bytes.toUInt16_ofUInt16 member))
  | invokeDynamic bootstrap member =>
      exact reads_block rfl
        (congrArg₂ invokeDynamic (Bytes.toUInt16_ofUInt16 bootstrap)
          (Bytes.toUInt16_ofUInt16 member))
  | moduleName name =>
      exact reads_block rfl (congrArg moduleName (Bytes.toUInt16_ofUInt16 name))
  | packageName name =>
      exact reads_block rfl (congrArg packageName (Bytes.toUInt16_ofUInt16 name))

/-- A constant is read back from its bytes, whatever slot it stands in. -/
theorem reads_encode (slot : Nat) {constant : Constant} (short : constant.IsShort) :
    (read slot).Reads constant.encode constant :=
  (reads_byte _ constant.tag).bind (reads_payload slot short)

/-- The ways to write a constant. Only a text can be written in more than one. -/
inductive Written : Constant → Bytes → Prop where
  | text {text : String} {bytes : Bytes} (short : bytes.length ≤ 65535)
      (spelled : Text.ModifiedUtf8.decode? bytes = some text) :
      Written (utf8 text)
        ((utf8 text).tag :: (Bytes.ofUInt16 (UInt16.ofNat bytes.length) ++ bytes))
  | plain {constant : Constant} (textless : ∀ text, constant ≠ utf8 text) :
      Written constant constant.encode

theorem written_encode {constant : Constant} (short : constant.IsShort) :
    constant.Written constant.encode := by
  cases constant with
  | utf8 text => exact .text short (Bytes.decode?_ofText text)
  | _ => exact .plain (by simp)

/-- A constant is read back from whatever it is written as. -/
theorem Written.reads {constant : Constant} {bytes : Bytes} (written : constant.Written bytes)
    (slot : Nat) : (read slot).Reads bytes constant := by
  cases written with
  | @text text bytes short spelled =>
      exact (reads_byte _ (utf8 text).tag).bind (reads_text slot short spelled)
  | plain textless =>
      apply reads_encode
      cases constant with
      | utf8 text => exact absurd rfl (textless text)
      | _ => trivial

/-- A text constant may hold its text in the variant encoding or in the standard one. Either is decoded
as the text, so the constants are read as the same, provided that two bytes hold the length. -/
theorem reads_either_encoding (text : String) :
    Text.ModifiedUtf8.decode? (Text.ModifiedUtf8.encode text) = some text ∧
      Text.ModifiedUtf8.decode? (Bytes.ofText text) = some text ∧
      ∀ bytes ∈ [Text.ModifiedUtf8.encode text, Bytes.ofText text], bytes.length ≤ 65535 →
        ∀ slot, (read slot).Reads
          ((utf8 text).tag :: (Bytes.ofUInt16 (UInt16.ofNat bytes.length) ++ bytes))
          (utf8 text) := by
  have variant := Text.ModifiedUtf8.decode?_encode text
  have standard := Bytes.decode?_ofText text
  refine ⟨variant, standard, ?_⟩
  intro bytes form short slot
  have spelled : Text.ModifiedUtf8.decode? bytes = some text := by
    rcases List.mem_pair.1 form with rfl | rfl
    · exact variant
    · exact standard
  exact (Written.text short spelled).reads slot

end ApiCoverage.ClassFile.Constant
