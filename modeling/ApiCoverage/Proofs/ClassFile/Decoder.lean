import ApiCoverage.Proofs.ClassFile.Instruction

/-!
# Decoding by positions

A decoder goes through a code without taking it apart: it knows the position that it has come to and
looks up bytes by their positions in the whole code. Looking up a byte outside of the code is an
outcome of its own, different from the end of the code and from an instruction that cannot be decoded.
The main statement says that this outcome never comes up, and that what a decoder yields from the start
is the instruction stream of the code, item by item.
-/

namespace ApiCoverage.ClassFile

namespace Instruction

/-- Where the operands of a switch start: at the next position behind its opcode that four divides. -/
def switchBase (offset : Nat) : Nat :=
  offset + 1 + (4 - (offset + 1) % 4) % 4

/-- The signed word at a position, for the switch at an offset. -/
def wordAt (code : Bytes) (offset position : Nat) : Except Fault Int :=
  if position + 4 ≤ code.length then .ok (Bytes.toInt32 ((code.drop position).take 4))
  else .error (.truncated .switchOperands offset (position + 4 - offset) (code.length - offset))

/-- The length of the table switch at an offset. -/
def tableSwitchLengthAt (code : Bytes) (offset : Nat) : Except Fault Nat := do
  let low ← wordAt code offset (switchBase offset + 4)
  let high ← wordAt code offset (switchBase offset + 8)
  if high < low then .error (.malformed .tableSwitch offset)
  else return switchBase offset + 12 + 4 * (high - low + 1).toNat - offset

/-- The length of the lookup switch at an offset. -/
def lookupSwitchLengthAt (code : Bytes) (offset : Nat) : Except Fault Nat := do
  let pairs ← wordAt code offset (switchBase offset + 4)
  if pairs < 0 then .error (.malformed .lookupSwitch offset)
  else return switchBase offset + 8 + 8 * pairs.toNat - offset

/-- The length of the widened instruction at an offset. -/
def wideLengthAt (code : Bytes) (offset : Nat) : Except Fault Nat :=
  match code[offset + 1]? with
  | none => .error (.truncated .wideInstruction offset 2 1)
  | some widened => .ok (if widened == incrementOpcode then 6 else 4)

/-- The length of the instruction with an opcode at an offset. -/
def encodedLengthAt (code : Bytes) (offset : Nat) (opcode : UInt8) : Except Fault Nat :=
  match opcode.toNat with
  | 0xAA => tableSwitchLengthAt code offset
  | 0xAB => lookupSwitchLengthAt code offset
  | 0xC4 => wideLengthAt code offset
  | _ =>
      match fixedLength? opcode with
      | some length => .ok length
      | none => .error (.invalidOpcode opcode offset)

/-- What the instruction with an opcode at an offset means, unless its bytes lie outside of the
code. -/
def operationAt? (code : Bytes) (offset : Nat) (opcode : UInt8) : Option Operation :=
  match InvokeKind.ofOpcode? opcode with
  | none => some .other
  | some kind => do
      let high ← code[offset + 1]?
      let low ← code[offset + 2]?
      return .invoke kind (Bytes.toUInt16 [high, low])

/-- The instruction at an offset. There is no answer where a byte outside of the code would have to be
looked up. -/
def decodeAt? (code : Bytes) (offset : Nat) : Option (Except Fault Instruction) := do
  let opcode ← code[offset]?
  match encodedLengthAt code offset opcode with
  | .error fault => return .error fault
  | .ok length =>
      if code.length - offset < length then
        return .error (.truncated .instruction offset length (code.length - offset))
      let operation ← operationAt? code offset opcode
      return .ok ⟨offset, opcode, length, operation⟩

end Instruction

/-- The position that decoding has come to, and whether it has failed. -/
structure Decoder where
  position : Nat
  failed : Bool
  deriving DecidableEq, Repr

namespace Decoder

/-- The decoder at the start of a code. -/
def start : Decoder :=
  ⟨0, false⟩

/-- What a decoder does when it is asked for the next item. -/
inductive Move where
  | exhausted
  /-- A byte outside of the code is looked up. -/
  | strayed
  | yielded (item : Except Fault Instruction) (next : Decoder)

/-- The next move of a decoder. A decoder that has failed yields nothing more. -/
def move (code : Bytes) (decoder : Decoder) : Move :=
  if decoder.failed || code.length ≤ decoder.position then .exhausted
  else
    match Instruction.decodeAt? code decoder.position with
    | none => .strayed
    | some (.error fault) => .yielded (.error fault) { decoder with failed := true }
    | some (.ok instruction) =>
        .yielded (.ok instruction)
          { decoder with position := decoder.position + instruction.length }

/-- A decoder yields some items, one with each move, until it is exhausted. -/
inductive Yields (code : Bytes) : Decoder → List (Except Fault Instruction) → Prop where
  | exhausted {decoder : Decoder} (ends : decoder.move code = .exhausted) : Yields code decoder []
  | yielded {decoder next : Decoder} {item : Except Fault Instruction}
      {items : List (Except Fault Instruction)} (moves : decoder.move code = .yielded item next)
      (later : Yields code next items) : Yields code decoder (item :: items)

end Decoder

/-- The items of a stream: its instructions, and at most one fault behind them. -/
def InstructionStream.items (stream : InstructionStream) : List (Except Fault Instruction) :=
  stream.instructions.map .ok ++ stream.fault.toList.map .error

/-! ## Looking up what is left of a code -/

section Left

variable {code operands : Bytes} {offset : Nat} {opcode : UInt8}

theorem length_of_drop (left : code.drop offset = opcode :: operands) :
    code.length = offset + (1 + operands.length) := by
  have size := congrArg List.length left
  rw [List.length_drop, List.length_cons] at size
  omega

theorem getElem?_of_drop (left : code.drop offset = opcode :: operands) :
    code[offset]? = some opcode := by
  have head := congrArg List.head? left
  rwa [List.head?_drop, List.head?_cons] at head

theorem drop_of_drop (left : code.drop offset = opcode :: operands) (count : Nat) :
    code.drop (offset + 1 + count) = operands.drop count := by
  rw [Nat.add_assoc, ← List.drop_drop, left, Nat.add_comm, List.drop_succ_cons]

theorem getElem?_add_of_drop (left : code.drop offset = opcode :: operands) (count : Nat) :
    code[offset + 1 + count]? = operands[count]? := by
  rw [← List.head?_drop, drop_of_drop left, List.head?_drop]

/-- Behind an instruction the rest of its operands is left. -/
theorem drop_length_of_drop (left : code.drop offset = opcode :: operands) {length : Nat}
    (positive : 1 ≤ length) : code.drop (offset + length) = operands.drop (length - 1) := by
  rw [← drop_of_drop left]
  congr 1
  omega

namespace Instruction

theorem switchBase_eq (offset : Nat) : switchBase offset = offset + 1 + switchPadding offset := by
  rw [switchBase, switchPadding]
  omega

theorem wordAt_eq (left : code.drop offset = opcode :: operands) (distance : Nat) :
    wordAt code offset (offset + 1 + distance) = switchOperand offset distance operands := by
  have size := length_of_drop left
  unfold wordAt switchOperand
  cases enough : Bytes.split? 4 (operands.drop distance) with
  | none =>
      rw [Bytes.split?_eq_none_iff, List.length_drop] at enough
      rw [if_neg (by omega)]
      have expected : offset + 1 + distance + 4 - offset = 1 + distance + 4 := by omega
      have available : code.length - offset = 1 + operands.length := by omega
      rw [expected, available]
  | some parts =>
      rcases parts with ⟨bytes, rest⟩
      rcases Bytes.split?_eq_some_iff.1 enough with ⟨split, four⟩
      have inside := congrArg List.length split
      rw [List.length_drop, List.length_append] at inside
      rw [if_pos (by omega), drop_of_drop left, split, List.take_left' four]

theorem tableSwitchLengthAt_eq (left : code.drop offset = opcode :: operands) :
    tableSwitchLengthAt code offset = tableSwitchLength offset operands := by
  have length_eq (count : Nat) : switchBase offset + 12 + count - offset =
      1 + switchPadding offset + 12 + count := by
    rw [switchBase_eq]
    omega
  simp only [tableSwitchLengthAt, tableSwitchLength, length_eq]
  simp only [switchBase_eq, Nat.add_assoc (offset + 1), wordAt_eq left]

theorem lookupSwitchLengthAt_eq (left : code.drop offset = opcode :: operands) :
    lookupSwitchLengthAt code offset = lookupSwitchLength offset operands := by
  have length_eq (count : Nat) : switchBase offset + 8 + count - offset =
      1 + switchPadding offset + 8 + count := by
    rw [switchBase_eq]
    omega
  simp only [lookupSwitchLengthAt, lookupSwitchLength, length_eq]
  simp only [switchBase_eq, Nat.add_assoc (offset + 1), wordAt_eq left]

theorem wideLengthAt_eq (left : code.drop offset = opcode :: operands) :
    wideLengthAt code offset = wideLength offset operands := by
  have next := getElem?_add_of_drop left 0
  rw [wideLengthAt, ← Nat.add_zero (offset + 1), next]
  cases operands <;> rfl

theorem encodedLengthAt_eq (left : code.drop offset = opcode :: operands) :
    encodedLengthAt code offset opcode = encodedLength offset opcode operands := by
  rw [encodedLengthAt, tableSwitchLengthAt_eq left, lookupSwitchLengthAt_eq left,
    wideLengthAt_eq left]
  rfl

/-- The operands of an instruction whose length is there are not looked up outside of the code. -/
theorem operationAt?_eq (left : code.drop offset = opcode :: operands) {length : Nat}
    (given : encodedLength offset opcode operands = .ok length)
    (enough : length ≤ 1 + operands.length) :
    operationAt? code offset opcode = some (operationOf opcode operands) := by
  unfold operationAt? operationOf
  cases called : InvokeKind.ofOpcode? opcode with
  | none => rfl
  | some kind =>
      rw [InvokeKind.ofOpcode?_eq_some_iff] at called
      subst called
      have two := two_le_length_of_decode (decode_eq_ok_iff.2 ⟨length, given, enough, rfl⟩)
      rcases operands with _ | ⟨high, _ | ⟨low, rest⟩⟩
      · cases two
      · exact absurd two (by simp)
      · have first : code[offset + 1]? = some high := getElem?_add_of_drop left 0
        have second : code[offset + 2]? = some low := getElem?_add_of_drop left 1
        simp [first, second]

/-- What is decoded by positions is what is decoded from the bytes that are left. -/
theorem decodeAt?_eq (left : code.drop offset = opcode :: operands) :
    decodeAt? code offset = some (decode offset opcode operands) := by
  have available : code.length - offset = 1 + operands.length := by
    rw [length_of_drop left, Nat.add_sub_cancel_left]
  unfold decodeAt? decode
  rw [getElem?_of_drop left, Option.bind_eq_bind, Option.bind_some, encodedLengthAt_eq left,
    available]
  cases given : encodedLength offset opcode operands with
  | error fault => rfl
  | ok length =>
      by_cases enough : length ≤ 1 + operands.length
      · have fits : Bytes.hasAtLeast (length - 1) operands = true := by
          rw [Bytes.hasAtLeast_iff]
          omega
        simp [operationAt?_eq left given enough, Nat.not_lt.2 enough, fits]
      · have missing : ¬ Bytes.hasAtLeast (length - 1) operands = true := by
          rw [Bytes.hasAtLeast_iff]
          omega
        simp [Nat.not_le.1 enough, missing]

end Instruction

end Left

/-! ## The items of a stream -/

namespace Decoder

variable {code : Bytes}

theorem move_of_failed (position : Nat) : move code ⟨position, true⟩ = .exhausted := by
  simp [move]

theorem move_at_end : move code ⟨code.length, false⟩ = .exhausted := by
  simp [move]

/-- Within the code, a decoder moves as decoding the bytes that are left says. -/
theorem move_of_drop {position : Nat} {opcode : UInt8} {operands : Bytes}
    (left : code.drop position = opcode :: operands) :
    move code ⟨position, false⟩ =
      match Instruction.decode position opcode operands with
      | .error fault => .yielded (.error fault) ⟨position, true⟩
      | .ok instruction => .yielded (.ok instruction) ⟨position + instruction.length, false⟩ := by
  have size := length_of_drop left
  have inside : ¬ code.length ≤ position := by omega
  simp only [move, inside, decide_false, Bool.or_self, Bool.false_eq_true, if_false,
    Instruction.decodeAt?_eq left]
  cases Instruction.decode position opcode operands <;> rfl

/-- A decoder yields the items that decoding the bytes that are left ends in. -/
theorem yields_of_decodes {offset : Nat} {bytes : Bytes} {stream : InstructionStream}
    (decodes : Decodes offset bytes stream) (inside : offset ≤ code.length)
    (left : code.drop offset = bytes) : Yields code ⟨offset, false⟩ stream.items := by
  induction decodes with
  | exhausted offset =>
      rw [List.drop_eq_nil_iff] at left
      obtain rfl : offset = code.length := Nat.le_antisymm inside left
      exact .exhausted move_at_end
  | fault refused =>
      have moves := move_of_drop left
      rw [refused] at moves
      exact .yielded moves (.exhausted (move_of_failed _))
  | @step offset _ _ _ _ decoded _ ih =>
      have moves := move_of_drop left
      rw [decoded] at moves
      rcases Instruction.decode_eq_ok_iff.1 decoded with ⟨length, given, enough, rfl⟩
      have positive := Instruction.one_le_encodedLength given
      have reached : offset + length ≤ code.length := by
        rw [length_of_drop left]
        omega
      exact .yielded moves (ih reached (drop_length_of_drop left positive))

/-- From the start of a code, a decoder yields the items of its instruction stream. -/
theorem yields_start (code : Bytes) : Yields code start (InstructionStream.ofBytes code).items :=
  yields_of_decodes (InstructionStream.decodes_ofBytes code) (Nat.zero_le _) rfl

end Decoder

end ApiCoverage.ClassFile
