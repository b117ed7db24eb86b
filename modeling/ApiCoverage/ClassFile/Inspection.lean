import ApiCoverage.ClassFile.Unit
import ApiCoverage.Text.Layout

/-!
# Inspecting a class file

The listing of a class file: its header, the method references of its constant pool, and its methods
with the calls in their code.
-/

namespace ApiCoverage.ClassFile

/-- A flag word as it is listed. -/
def Access.display (access : Access) : String :=
  s!"0x{Text.hexDigits 4 access.bits.toNat}"

namespace ClassUnit

/-- The lines of the header. -/
def headerLines (unit : ClassUnit) : List String :=
  [s!"{unit.name} (version {unit.majorVersion}.{unit.minorVersion})",
    s!"  access: {unit.access.display}"] ++
    unit.superName.toList.map (fun name => s!"  extends: {name}") ++
    unit.interfaces.map (fun name => s!"  implements: {name}") ++
    unit.sourceFile.toList.map (fun file => s!"  source: {file}") ++
    unit.annotations.map (fun use => s!"  @{use.typeName}")

/-- The line of a method reference. -/
def referenceLine (slot : Nat) (tag : String) (ref : MemberRef) : String :=
  let place := Text.alignLeft 5 (toString slot)
  s!"  #{place} {Text.alignLeft 19 tag} {ref.owner}.{ref.name}{ref.descriptor}"

/-- The line of a symbol, if it is a method reference. -/
def symbolLine? : Nat × Symbol → Option String
  | (slot, .method ref) => some (referenceLine slot "Methodref" ref)
  | (slot, .interfaceMethod ref) => some (referenceLine slot "InterfaceMethodref" ref)
  | (_, .other) => none

end ClassUnit

/-- The line of an instruction, if it is a call. -/
def CodeBody.callLine? (body : CodeBody) (instruction : Instruction) : Option String :=
  match instruction.operation with
  | .other => none
  | .invoke kind slot =>
      let offset := Text.alignRight 5 (toString instruction.offset)
      let line := match body.lineFor instruction.offset with
        | some line => toString line
        | none => "?"
      some s!"    {offset}: {kind.mnemonic} #{slot} (line {line})"

/-- The lines of a body: its calls, and why the rest of the code cannot be decoded. -/
def CodeBody.callLines (body : CodeBody) : List String :=
  let stream := body.instructions
  stream.instructions.filterMap body.callLine? ++
    stream.fault.toList.map fun fault => s!"    error: {fault.message}"

/-- The lines of a method. -/
def MethodDecl.lines (method : MethodDecl) : List String :=
  let deprecated := if method.deprecated then " deprecated" else ""
  s!"  {method.name}{method.descriptor} [{method.access.display}{deprecated}]" ::
    method.body.toList.flatMap CodeBody.callLines

/-- The listing of a class file. -/
def ClassUnit.inspection (unit : ClassUnit) : String :=
  Text.unlines (unit.headerLines ++ ["", "Symbols:"] ++
    unit.symbolTable.filterMap ClassUnit.symbolLine? ++ ["", "Methods:"] ++
    unit.methods.flatMap MethodDecl.lines)

end ApiCoverage.ClassFile
