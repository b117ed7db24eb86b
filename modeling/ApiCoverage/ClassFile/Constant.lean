import ApiCoverage.ClassFile.Reader
import ApiCoverage.Text.ModifiedUtf8

/-!
# Constants

The seventeen kinds of constant of a class file with their payloads, their tags and their byte
forms. A constant refers to others by slot number; numbers are kept as the bits that the file
holds. The two eight-byte kinds take up two slots, every other kind one.
-/

namespace ApiCoverage.ClassFile

/-- A constant pool entry. -/
inductive Constant where
  | utf8 (text : String)
  | integer (bits : UInt32)
  | float (bits : UInt32)
  | long (bits : UInt64)
  | double (bits : UInt64)
  | classReference (name : UInt16)
  | string (text : UInt16)
  | fieldReference (owner nameAndType : UInt16)
  | methodReference (owner nameAndType : UInt16)
  | interfaceMethodReference (owner nameAndType : UInt16)
  | nameAndType (name descriptor : UInt16)
  | methodHandle (kind : UInt8) (reference : UInt16)
  | methodType (descriptor : UInt16)
  | dynamic (bootstrap nameAndType : UInt16)
  | invokeDynamic (bootstrap nameAndType : UInt16)
  | moduleName (name : UInt16)
  | packageName (name : UInt16)
  deriving DecidableEq, Repr

namespace Constant

/-- The byte that announces the kind of a constant. -/
def tag : Constant → UInt8
  | utf8 _ => 1
  | integer _ => 3
  | float _ => 4
  | long _ => 5
  | double _ => 6
  | classReference _ => 7
  | string _ => 8
  | fieldReference _ _ => 9
  | methodReference _ _ => 10
  | interfaceMethodReference _ _ => 11
  | nameAndType _ _ => 12
  | methodHandle _ _ => 15
  | methodType _ => 16
  | dynamic _ _ => 17
  | invokeDynamic _ _ => 18
  | moduleName _ => 19
  | packageName _ => 20

/-- Whether a constant takes up two slots. -/
def isWide : Constant → Bool
  | long _ => true
  | double _ => true
  | _ => false

/-- The number of slots that a constant takes up. -/
def width (constant : Constant) : Nat :=
  if constant.isWide then 2 else 1

/-- The bytes after the tag. The length of a text is written in two bytes. -/
def payload : Constant → Bytes
  | utf8 text =>
      let bytes := Bytes.ofText text
      Bytes.ofUInt16 (UInt16.ofNat bytes.length) ++ bytes
  | integer bits => Bytes.ofUInt32 bits
  | float bits => Bytes.ofUInt32 bits
  | long bits => Bytes.ofUInt64 bits
  | double bits => Bytes.ofUInt64 bits
  | classReference name => Bytes.ofUInt16 name
  | string text => Bytes.ofUInt16 text
  | fieldReference owner member => Bytes.ofUInt16 owner ++ Bytes.ofUInt16 member
  | methodReference owner member => Bytes.ofUInt16 owner ++ Bytes.ofUInt16 member
  | interfaceMethodReference owner member => Bytes.ofUInt16 owner ++ Bytes.ofUInt16 member
  | nameAndType name descriptor => Bytes.ofUInt16 name ++ Bytes.ofUInt16 descriptor
  | methodHandle kind reference => kind :: Bytes.ofUInt16 reference
  | methodType descriptor => Bytes.ofUInt16 descriptor
  | dynamic bootstrap member => Bytes.ofUInt16 bootstrap ++ Bytes.ofUInt16 member
  | invokeDynamic bootstrap member => Bytes.ofUInt16 bootstrap ++ Bytes.ofUInt16 member
  | moduleName name => Bytes.ofUInt16 name
  | packageName name => Bytes.ofUInt16 name

/-- The bytes of a constant, its text in standard UTF-8. -/
def encode (constant : Constant) : Bytes :=
  constant.tag :: constant.payload

/-- Reads the text of a `Utf8` constant. -/
def readText (slot : Nat) : Reader Constant := do
  let length ← Reader.word .utf8Constant
  let bytes ← Reader.take .utf8Constant length.toNat
  match Text.ModifiedUtf8.decode? bytes with
  | some text => return utf8 text
  | none => Reader.fail (.invalidUtf8 slot)

/-- Reads two slot numbers, each as a part of its own. -/
def readPair (part : Part) (make : UInt16 → UInt16 → Constant) : Reader Constant := do
  let first ← Reader.word part
  let second ← Reader.word part
  return make first second

/-- Reads a payload of fixed size as one part. -/
def readBlock (part : Part) (size : Nat) (make : Bytes → Constant) : Reader Constant := do
  let bytes ← Reader.take part size
  return make bytes

/-- Reads the payload that belongs to a tag, for the constant in a given slot. -/
def readPayload (slot : Nat) (tag : UInt8) : Reader Constant :=
  match tag.toNat with
  | 1 => readText slot
  | 3 => readBlock .numericConstant 4 fun bytes => integer (Bytes.toUInt32 bytes)
  | 4 => readBlock .numericConstant 4 fun bytes => float (Bytes.toUInt32 bytes)
  | 5 => readBlock .wideConstant 8 fun bytes => long (Bytes.toUInt64 bytes)
  | 6 => readBlock .wideConstant 8 fun bytes => double (Bytes.toUInt64 bytes)
  | 7 => readBlock .classConstant 2 fun bytes => classReference (Bytes.toUInt16 bytes)
  | 8 => readBlock .constant 2 fun bytes => string (Bytes.toUInt16 bytes)
  | 9 => readPair .memberReference fieldReference
  | 10 => readPair .memberReference methodReference
  | 11 => readPair .memberReference interfaceMethodReference
  | 12 => readPair .nameAndTypeConstant nameAndType
  | 15 => readBlock .methodHandleConstant 3 fun bytes =>
      methodHandle (bytes.headD 0) (Bytes.toUInt16 bytes.tail)
  | 16 => readBlock .constant 2 fun bytes => methodType (Bytes.toUInt16 bytes)
  | 17 => readBlock .dynamicConstant 4 fun bytes =>
      dynamic (Bytes.toUInt16 (bytes.take 2)) (Bytes.toUInt16 (bytes.drop 2))
  | 18 => readBlock .dynamicConstant 4 fun bytes =>
      invokeDynamic (Bytes.toUInt16 (bytes.take 2)) (Bytes.toUInt16 (bytes.drop 2))
  | 19 => readBlock .constant 2 fun bytes => moduleName (Bytes.toUInt16 bytes)
  | 20 => readBlock .constant 2 fun bytes => packageName (Bytes.toUInt16 bytes)
  | _ => Reader.fail (.unknownConstantTag slot tag)

/-- Reads the constant in a given slot. -/
def read (slot : Nat) : Reader Constant := do
  let tag ← Reader.byte .constantPool
  readPayload slot tag

end Constant

end ApiCoverage.ClassFile
