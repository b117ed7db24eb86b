import ApiCoverage.ClassFile.Access
import ApiCoverage.ClassFile.AnnotationUse
import ApiCoverage.ClassFile.CodeBody

/-!
# Class units

A class file read as a whole: its header, its annotations, its methods with their bodies, and the
symbols of its constant pool. Fields and unknown attributes are skipped. The sections are read in
file order, so the first fault in the file is the one reported; the symbols are resolved last.
-/

namespace ApiCoverage.ClassFile

/-- A method that a class declares. -/
structure MethodDecl where
  name : String
  descriptor : String
  access : Access
  deprecated : Bool := false
  annotations : List AnnotationUse := []
  parameterAnnotations : List (List AnnotationUse) := []
  body : Option CodeBody := none
  deriving DecidableEq, Repr

/-- The display form of a method; a method whose descriptor cannot be read shows its bare name. -/
def MethodDecl.signature (method : MethodDecl) : String :=
  match Descriptor.display method.name method.descriptor with
  | .ok text => text
  | .error _ => method.name

/-- A class file. -/
structure ClassUnit where
  minorVersion : UInt16
  majorVersion : UInt16
  access : Access
  /-- The dotted binary name. -/
  name : String
  superName : Option String
  interfaces : List String
  sourceFile : Option String
  annotations : List AnnotationUse
  /-- The symbol of every constant pool slot, slot 0 included. -/
  symbols : Array Symbol
  methods : List MethodDecl

namespace ClassUnit

/-- The symbol in a slot. -/
def symbol? (unit : ClassUnit) (slot : UInt16) : Option Symbol :=
  unit.symbols[slot.toNat]?

/-- The slots from 1 on with their symbols, in order. -/
def symbolTable (unit : ClassUnit) : List (Nat × Symbol) :=
  (unit.symbols.toList.zipIdx.map fun (symbol, slot) => (slot, symbol)).drop 1

end ClassUnit

/-- The bytes with which every class file begins. -/
def signature : UInt32 := 0xCAFEBABE

/-- The oldest version that can be read. -/
def oldestVersion : UInt16 := 45

/-- The newest version that can be read. -/
def newestVersion : UInt16 := 69

/-- Whether bytes begin as a class file does. -/
def isClassFile (bytes : Bytes) : Bool :=
  (Bytes.ofUInt32 signature).isPrefixOf bytes

/-- The name of an attribute and where its body stands. -/
structure Attribute where
  name : String
  body : Cursor

namespace Attribute

/-- Reads an attribute. -/
def read (pool : Pool) : Reader Attribute := do
  let name ← Reader.ofExcept (pool.utf8 (← Reader.word .attributeHeader))
  let length ← Reader.doubleWord .attributeHeader
  let offset ← Reader.position
  let body ← Reader.take .attributeBody length.toNat
  return ⟨name, ⟨offset, body⟩⟩

/-- Reads over a counted list of attributes without looking at their names. -/
def skipList : Reader Unit := do
  let count ← Reader.word .attributes
  let _ ← Reader.times count.toNat do
    let _ ← Reader.take .attributeHeader 2
    let length ← Reader.doubleWord .attributeHeader
    let _ ← Reader.take .attributeBody length.toNat
  return ()

/-- Reads `count` attributes and lets each act on a state. -/
def fold {σ : Type} (pool : Pool) (act : σ → Attribute → Except Fault σ) :
    Nat → σ → Reader σ
  | 0, state => fun cursor => .ok (state, cursor)
  | count + 1, state => fun cursor =>
      match read pool cursor with
      | .error fault => .error fault
      | .ok (entry, next) =>
          match act state entry with
          | .error fault => .error fault
          | .ok state => fold pool act count state next

/-- What a reader gives on the body of an attribute. -/
def parse {α : Type} (entry : Attribute) (reader : Reader α) : Except Fault α :=
  (reader entry.body).map Prod.fst

end Attribute

/-- Reads a row of a line table. -/
def LineEntry.read : Reader LineEntry := do
  let start ← Reader.word .lineNumberTable
  let line ← Reader.word .lineNumberTable
  return ⟨start, line⟩

/-- Reads a counted line table. -/
def LineEntry.readTable : Reader (List LineEntry) := do
  let count ← Reader.word .lineNumberTable
  Reader.times count.toNat LineEntry.read

namespace CodeBody

/-- The line table after an attribute of the code: line tables add up in file order. The rows stand
in reverse. -/
def withAttribute (table : Option (List LineEntry)) (entry : Attribute) :
    Except Fault (Option (List LineEntry)) :=
  if entry.name == "LineNumberTable" then
    (entry.parse LineEntry.readTable).map fun entries => some (entries.reverse ++ table.getD [])
  else
    .ok table

/-- Reads a method body. -/
def read (pool : Pool) : Reader CodeBody := do
  let _ ← Reader.take .code 4
  let length ← Reader.doubleWord .code
  let code ← Reader.take .bytecode length.toNat
  let handlers ← Reader.word .exceptionTable
  let _ ← Reader.take .exceptionTable (handlers.toNat * 8)
  let count ← Reader.word .codeAttributes
  let table ← Attribute.fold pool withAttribute count.toNat none
  return ofTable code (table.map List.reverse)

end CodeBody

/-- Reads the annotations of each parameter. -/
def AnnotationUse.readParameters (pool : Pool) : Reader (List (List AnnotationUse)) := do
  let count ← Reader.byte .parameterAnnotations
  Reader.times count.toNat (AnnotationUse.readList pool)

namespace MethodDecl

/-- The method after one of its attributes. A later attribute of the same name replaces what an
earlier one gave, except that deprecation stays. -/
def withAttribute (pool : Pool) (method : MethodDecl) (entry : Attribute) :
    Except Fault MethodDecl :=
  match entry.name with
  | "Code" => do
      let body ← entry.parse (CodeBody.read pool)
      return { method with body := some body }
  | "Deprecated" => .ok { method with deprecated := true }
  | "RuntimeVisibleAnnotations" => do
      let annotations ← entry.parse (AnnotationUse.readList pool)
      let deprecated := method.deprecated || annotations.any AnnotationUse.isDeprecation
      return { method with annotations, deprecated }
  | "RuntimeVisibleParameterAnnotations" => do
      let parameterAnnotations ← entry.parse (AnnotationUse.readParameters pool)
      return { method with parameterAnnotations }
  | _ => .ok method

/-- Reads a method. -/
def read (pool : Pool) : Reader MethodDecl := do
  let access ← Reader.word .method
  let name ← Reader.ofExcept (pool.utf8 (← Reader.word .method))
  let descriptor ← Reader.ofExcept (pool.utf8 (← Reader.word .method))
  let count ← Reader.word .methodAttributes
  let bare : MethodDecl := ⟨name, descriptor, ⟨access⟩, false, [], [], none⟩
  Attribute.fold pool (withAttribute pool) count.toNat bare

end MethodDecl

namespace ClassUnit

/-- What the attributes of a class say. -/
structure Attributes where
  sourceFile : Option String
  annotations : List AnnotationUse

/-- The attributes of a class after one more; a later attribute of the same name counts. -/
def Attributes.extend (pool : Pool) (attributes : Attributes) (entry : Attribute) :
    Except Fault Attributes :=
  match entry.name with
  | "SourceFile" => do
      let index ← entry.parse (Reader.word .sourceFile)
      let file ← pool.utf8 index
      return { attributes with sourceFile := some file }
  | "RuntimeVisibleAnnotations" => do
      let annotations ← entry.parse (AnnotationUse.readList pool)
      return { attributes with annotations }
  | _ => .ok attributes

/-- Reads the file signature and the version: minor and major. -/
def readVersion : Reader (UInt16 × UInt16) := do
  let magic ← Reader.doubleWord .header
  if magic != signature then
    Reader.fail (.invalidMagic magic)
  let minor ← Reader.word .header
  let major ← Reader.word .header
  if major < oldestVersion || newestVersion < major then
    Reader.fail (.unsupportedVersion major minor)
  return (minor, major)

/-- Reads the index of the super class, where zero stands for none. -/
def readSuper (pool : Pool) : Reader (Option String) := do
  let index ← Reader.word .classHeader
  if index == 0 then
    return none
  else
    return some (← Reader.ofExcept (pool.className index))

/-- Reads a counted list of class indexes. -/
def readInterfaces (pool : Pool) : Reader (List String) := do
  let count ← Reader.word .interfaces
  Reader.times count.toNat do
    Reader.ofExcept (pool.className (← Reader.word .interfaces))

/-- Reads over the fields. -/
def skipFields : Reader Unit := do
  let count ← Reader.word .fields
  let _ ← Reader.times count.toNat do
    let _ ← Reader.take .field 6
    Attribute.skipList
  return ()

/-- Reads the methods. -/
def readMethods (pool : Pool) : Reader (List MethodDecl) := do
  let count ← Reader.word .methods
  Reader.times count.toNat (MethodDecl.read pool)

/-- Reads the attributes of the class. -/
def readAttributes (pool : Pool) : Reader Attributes := do
  let count ← Reader.word .classAttributes
  Attribute.fold pool (Attributes.extend pool) count.toNat ⟨none, []⟩

/-- Refuses bytes after the end of the class file. -/
def readEnd : Reader Unit :=
  fun cursor =>
    if cursor.rest.isEmpty then .ok ((), cursor)
    else .error (.trailingBytes cursor.rest.length)

/-- Reads what follows the constant pool in a class file of a given version. -/
def readBody (minorVersion majorVersion : UInt16) (pool : Pool) : Reader ClassUnit := do
  let access ← Reader.word .classHeader
  let name ← Reader.ofExcept (pool.className (← Reader.word .classHeader))
  let superName ← readSuper pool
  let interfaces ← readInterfaces pool
  skipFields
  let methods ← readMethods pool
  let attributes ← readAttributes pool
  readEnd
  let symbols ← Reader.ofExcept pool.symbols
  return {
    minorVersion, majorVersion, access := ⟨access⟩, name, superName, interfaces
    sourceFile := attributes.sourceFile, annotations := attributes.annotations
    symbols := symbols.toArray, methods }

/-- Reads a class file. -/
def read : Reader ClassUnit := do
  let (minorVersion, majorVersion) ← readVersion
  let pool ← Pool.read
  readBody minorVersion majorVersion pool

/-- Opens a class file. -/
def ofBytes (bytes : Bytes) : Except Fault ClassUnit :=
  (read ⟨0, bytes⟩).map Prod.fst

end ClassUnit

end ApiCoverage.ClassFile
