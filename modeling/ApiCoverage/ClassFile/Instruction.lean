import ApiCoverage.Bytes
import ApiCoverage.ClassFile.Fault

/-!
# Instructions

A method's code is a sequence of instructions of varying length. The opcode decides the length,
except for the two switch instructions, whose operands are aligned to four bytes from the start of
the code and whose tables carry their own size, and for the `wide` form. Decoding runs from the
front and stops at the first instruction that is unknown or does not fit; the instructions before
it stand.
-/

namespace ApiCoverage.ClassFile

/-- The ways of calling a method. -/
inductive InvokeKind where
  | virtual
  | special
  | static
  | interface
  deriving DecidableEq, Repr

namespace InvokeKind

/-- The opcode of a call. -/
def opcode : InvokeKind → UInt8
  | virtual => 0xB6
  | special => 0xB7
  | static => 0xB8
  | interface => 0xB9

/-- The instruction name of a call. -/
def mnemonic : InvokeKind → String
  | virtual => "invokevirtual"
  | special => "invokespecial"
  | static => "invokestatic"
  | interface => "invokeinterface"

/-- The call that an opcode makes. -/
def ofOpcode? (opcode : UInt8) : Option InvokeKind :=
  match opcode.toNat with
  | 0xB6 => some virtual
  | 0xB7 => some special
  | 0xB8 => some static
  | 0xB9 => some interface
  | _ => none

end InvokeKind

/-- What an instruction means to the reader of method calls. -/
inductive Operation where
  /-- A call of the method that a constant pool slot refers to. -/
  | invoke (kind : InvokeKind) (slot : UInt16)
  | other
  deriving DecidableEq, Repr

/-- A decoded instruction. -/
structure Instruction where
  /-- The distance from the start of the code. -/
  offset : Nat
  opcode : UInt8
  /-- The number of bytes, operands and padding included. -/
  length : Nat
  operation : Operation
  deriving DecidableEq, Repr

namespace Instruction

/-- The slot that an instruction calls. -/
def invokedSlot? (instruction : Instruction) : Option UInt16 :=
  match instruction.operation with
  | .invoke _ slot => some slot
  | .other => none

/-- The number of padding bytes before the operands of a switch at an offset. -/
def switchPadding (offset : Nat) : Nat :=
  3 - offset % 4

/-- The signed four-byte operand that starts `distance` bytes after the opcode byte of the
instruction at `offset`. -/
def switchOperand (offset distance : Nat) (operands : Bytes) : Except Fault Int :=
  match Bytes.split? 4 (operands.drop distance) with
  | some (bytes, _) => .ok (Bytes.toInt32 bytes)
  | none =>
      .error (.truncated .switchOperands offset (1 + distance + 4) (1 + operands.length))

/-- The length of a switch with a table of consecutive cases. -/
def tableSwitchLength (offset : Nat) (operands : Bytes) : Except Fault Nat := do
  let padding := switchPadding offset
  let low ← switchOperand offset (padding + 4) operands
  let high ← switchOperand offset (padding + 8) operands
  if high < low then .error (.malformed .tableSwitch offset)
  else return 1 + padding + 12 + 4 * (high - low + 1).toNat

/-- The length of a switch with a table of pairs. -/
def lookupSwitchLength (offset : Nat) (operands : Bytes) : Except Fault Nat := do
  let padding := switchPadding offset
  let pairs ← switchOperand offset (padding + 4) operands
  if pairs < 0 then .error (.malformed .lookupSwitch offset)
  else return 1 + padding + 8 + 8 * pairs.toNat

/-- The opcode of the widened local variable increment. -/
def incrementOpcode : UInt8 := 0x84

/-- The length of an instruction with the `wide` prefix, which the widened opcode decides. -/
def wideLength (offset : Nat) : Bytes → Except Fault Nat
  | [] => .error (.truncated .wideInstruction offset 2 1)
  | widened :: _ => .ok (if widened == incrementOpcode then 6 else 4)

/-- The opcodes of fixed length: each row gives the first and last opcode and the length. -/
def fixedLengths : List (Nat × Nat × Nat) :=
  [(0x00, 0x0F, 1), (0x10, 0x10, 2), (0x11, 0x11, 3), (0x12, 0x12, 2), (0x13, 0x14, 3),
    (0x15, 0x19, 2), (0x1A, 0x35, 1), (0x36, 0x3A, 2), (0x3B, 0x83, 1), (0x84, 0x84, 3),
    (0x85, 0x98, 1), (0x99, 0xA8, 3), (0xA9, 0xA9, 2), (0xAC, 0xB1, 1), (0xB2, 0xB8, 3),
    (0xB9, 0xBA, 5), (0xBB, 0xBB, 3), (0xBC, 0xBC, 2), (0xBD, 0xBD, 3), (0xBE, 0xBF, 1),
    (0xC0, 0xC1, 3), (0xC2, 0xC3, 1), (0xC5, 0xC5, 4), (0xC6, 0xC7, 3), (0xC8, 0xC9, 5),
    (0xCA, 0xCA, 1), (0xFE, 0xFF, 1)]

/-- The length of an instruction whose opcode alone decides it. -/
def fixedLength? (opcode : UInt8) : Option Nat :=
  (fixedLengths.find? fun (first, last, _) =>
    first ≤ opcode.toNat && opcode.toNat ≤ last).map fun (_, _, length) => length

/-- The length of the instruction at `offset`, from its opcode and the bytes after it. -/
def encodedLength (offset : Nat) (opcode : UInt8) (operands : Bytes) : Except Fault Nat :=
  match opcode.toNat with
  | 0xAA => tableSwitchLength offset operands
  | 0xAB => lookupSwitchLength offset operands
  | 0xC4 => wideLength offset operands
  | _ =>
      match fixedLength? opcode with
      | some length => .ok length
      | none => .error (.invalidOpcode opcode offset)

/-- What an opcode with its operands means. -/
def operationOf (opcode : UInt8) (operands : Bytes) : Operation :=
  match InvokeKind.ofOpcode? opcode with
  | some kind => .invoke kind (Bytes.toUInt16 (operands.take 2))
  | none => .other

/-- Decodes the instruction at `offset`, from its opcode and the bytes after it. -/
def decode (offset : Nat) (opcode : UInt8) (operands : Bytes) : Except Fault Instruction :=
  match encodedLength offset opcode operands with
  | .error fault => .error fault
  | .ok length =>
      if Bytes.hasAtLeast (length - 1) operands then
        .ok ⟨offset, opcode, length, operationOf opcode operands⟩
      else
        .error (.truncated .instruction offset length (1 + operands.length))

end Instruction

/-- The instructions of a code up to its end or to the first that cannot be decoded. -/
structure InstructionStream where
  instructions : List Instruction
  /-- Why decoding stopped before the end. -/
  fault : Option Fault
  deriving DecidableEq, Repr

namespace InstructionStream

/-- Decodes the bytes at `offset`, after the instructions in `done`, which stand in reverse. -/
def decodeOnto (done : List Instruction) (offset : Nat) : Bytes → InstructionStream
  | [] => ⟨done.reverse, none⟩
  | opcode :: operands =>
      match Instruction.decode offset opcode operands with
      | .error fault => ⟨done.reverse, some fault⟩
      | .ok instruction =>
          decodeOnto (instruction :: done) (offset + instruction.length)
            (operands.drop (instruction.length - 1))
  termination_by bytes => bytes.length
  decreasing_by
    simp only [List.length_drop, List.length_cons]
    omega

/-- The instruction stream of a code. -/
def ofBytes (code : Bytes) : InstructionStream :=
  decodeOnto [] 0 code

end InstructionStream

end ApiCoverage.ClassFile
