import ApiCoverage.Text.Layout

/-!
# What can be wrong with a class file

A refusal names the part of the file that was being read and where in the file it stands. Offsets
count from the start of the file, also for parts that are read out of an enclosing attribute; those
of instructions count from the start of the method's code.
-/

namespace ApiCoverage.ClassFile

/-- A part of a class file, as messages name it. -/
inductive Part where
  | header
  | constantPool
  | utf8Constant
  | classConstant
  | nameAndTypeConstant
  | memberReference
  | numericConstant
  | wideConstant
  | constant
  | methodHandleConstant
  | dynamicConstant
  | classHeader
  | interfaces
  | fields
  | field
  | methods
  | method
  | methodAttributes
  | classAttributes
  | attributes
  | attributeHeader
  | attributeBody
  | sourceFile
  | parameterAnnotations
  | code
  | bytecode
  | exceptionTable
  | codeAttributes
  | lineNumberTable
  | annotations
  | annotationHeader
  | annotationElement
  | annotationNesting
  | elementValue
  | elementValueTag
  | elementArray
  | innerAnnotations
  | instruction
  | wideInstruction
  | switchOperands
  | tableSwitch
  | lookupSwitch
  deriving DecidableEq, Repr

/-- The words for a part in a message. -/
def Part.words : Part → String
  | header => "header"
  | constantPool => "constant pool"
  | utf8Constant => "Utf8 constant"
  | classConstant => "Class constant"
  | nameAndTypeConstant => "NameAndType constant"
  | memberReference => "member reference"
  | numericConstant => "numeric constant"
  | wideConstant => "wide constant"
  | constant => "constant"
  | methodHandleConstant => "MethodHandle constant"
  | dynamicConstant => "dynamic constant"
  | classHeader => "class header"
  | interfaces => "interfaces"
  | fields => "fields"
  | field => "field"
  | methods => "methods"
  | method => "method"
  | methodAttributes => "method attributes"
  | classAttributes => "class attributes"
  | attributes => "attributes"
  | attributeHeader => "attribute"
  | attributeBody => "attribute body"
  | sourceFile => "SourceFile"
  | parameterAnnotations => "parameter annotations"
  | code => "Code"
  | bytecode => "bytecode"
  | exceptionTable => "exception table"
  | codeAttributes => "Code attributes"
  | lineNumberTable => "LineNumberTable"
  | annotations => "annotations"
  | annotationHeader => "annotation"
  | annotationElement => "annotation element"
  | annotationNesting => "annotation nesting"
  | elementValue => "element value"
  | elementValueTag => "element value tag"
  | elementArray => "element array"
  | innerAnnotations => "nested annotation"
  | instruction => "instruction"
  | wideInstruction => "wide instruction"
  | switchOperands => "switch operands"
  | tableSwitch => "tableswitch"
  | lookupSwitch => "lookupswitch"

/-- The kinds of constant that an index must point to. -/
inductive Expected where
  | utf8
  | classReference
  | nameAndType
  deriving DecidableEq, Repr

/-- The words for an expected constant in a message. -/
def Expected.words : Expected → String
  | utf8 => "Utf8 constant"
  | classReference => "Class constant"
  | nameAndType => "NameAndType constant"

/-- Why a class file, or a method's code, is refused. -/
inductive Fault where
  /-- The file does not begin with the class file signature. -/
  | invalidMagic (found : UInt32)
  | unsupportedVersion (major minor : UInt16)
  /-- The bytes end inside a part. -/
  | truncated (part : Part) (offset expected available : Nat)
  | unknownConstantTag (slot : Nat) (tag : UInt8)
  /-- An index does not lead to the constant it must lead to. -/
  | badConstantIndex (slot : UInt16) (expected : Expected)
  | invalidUtf8 (slot : Nat)
  | invalidOpcode (opcode : UInt8) (offset : Nat)
  /-- A part is complete but has no meaning. -/
  | malformed (part : Part) (offset : Nat)
  /-- The class file ends before the bytes do. -/
  | trailingBytes (count : Nat)
  deriving DecidableEq, Repr

/-- The message for a refusal. -/
def Fault.message : Fault → String
  | invalidMagic found =>
      s!"invalid magic number 0x{Text.hexDigits 8 found.toNat}: expected 0xcafebabe"
  | unsupportedVersion major minor => s!"unsupported class file version {major}.{minor}"
  | truncated part offset expected available =>
      s!"truncated {part.words} at offset {offset}: expected {expected} bytes, got {available}"
  | unknownConstantTag slot tag => s!"unknown constant pool tag {tag} in slot {slot}"
  | badConstantIndex slot expected =>
      s!"constant pool slot {slot} is not a valid {expected.words}"
  | invalidUtf8 slot => s!"invalid modified UTF-8 in constant pool slot {slot}"
  | invalidOpcode opcode offset =>
      s!"invalid opcode 0x{Text.hexDigits 2 opcode.toNat} at offset {offset}"
  | malformed part offset => s!"malformed {part.words} at offset {offset}"
  | trailingBytes count => s!"{count} unexpected bytes after the last class attribute"

end ApiCoverage.ClassFile
