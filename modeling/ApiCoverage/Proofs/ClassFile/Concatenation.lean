import ApiCoverage.Proofs.ClassFile.Cut

/-!
# Codes joined one behind the other

A code that decodes without a fault can be put in front of any other: its instructions stay what they
are, and decoding goes on with the other code at the place where it now stands. Switches are padded up
to an offset that four divides, so what is decoded there is what the other code decodes to on its own
once it has moved by a multiple of four. Every offset has then moved along, and nothing else has.
-/

namespace ApiCoverage.ClassFile

open Outcome (mapError_bind)

/-! ## Moved offsets -/

/-- The fault with the offset that it names, if it names one, moved by a distance. -/
def Fault.shift (distance : Nat) : Fault → Fault
  | truncated part offset expected available =>
      truncated part (offset + distance) expected available
  | invalidOpcode opcode offset => invalidOpcode opcode (offset + distance)
  | malformed part offset => malformed part (offset + distance)
  | fault => fault

namespace Instruction

/-- The instruction with its offset moved by a distance. -/
def shift (distance : Nat) (instruction : Instruction) : Instruction :=
  { instruction with offset := instruction.offset + distance }

end Instruction

namespace InstructionStream

/-- The item of a stream with its offset moved by a distance. -/
def shiftItem (distance : Nat) : Except Fault Instruction → Except Fault Instruction
  | .ok instruction => .ok (instruction.shift distance)
  | .error fault => .error (fault.shift distance)

/-- The stream with all its offsets moved by a distance. -/
def shift (distance : Nat) (stream : InstructionStream) : InstructionStream :=
  ⟨stream.instructions.map (Instruction.shift distance), stream.fault.map (Fault.shift distance)⟩

theorem items_shift (distance : Nat) (stream : InstructionStream) :
    (stream.shift distance).items = stream.items.map (shiftItem distance) := by
  rcases stream with ⟨instructions, fault⟩
  cases fault <;> simp [shift, items, shiftItem, Function.comp_def]

end InstructionStream

namespace Instruction

variable {offset distance : Nat} {opcode : UInt8} {operands : Bytes} {instruction : Instruction}

/-! ## Decoding at a moved offset -/

theorem switchPadding_add (aligned : 4 ∣ distance) :
    switchPadding (offset + distance) = switchPadding offset := by
  rw [switchPadding, switchPadding, Nat.add_mod, Nat.mod_eq_zero_of_dvd aligned, Nat.add_zero,
    Nat.mod_mod]

theorem switchOperand_add (start : Nat) :
    switchOperand (offset + distance) start operands =
      (switchOperand offset start operands).mapError (Fault.shift distance) := by
  unfold switchOperand
  split <;> rfl

theorem tableSwitchLength_add (aligned : 4 ∣ distance) :
    tableSwitchLength (offset + distance) operands =
      (tableSwitchLength offset operands).mapError (Fault.shift distance) := by
  simp only [tableSwitchLength, switchPadding_add aligned, switchOperand_add, mapError_bind]
  congr 1
  funext low
  congr 1
  funext high
  split <;> rfl

theorem lookupSwitchLength_add (aligned : 4 ∣ distance) :
    lookupSwitchLength (offset + distance) operands =
      (lookupSwitchLength offset operands).mapError (Fault.shift distance) := by
  simp only [lookupSwitchLength, switchPadding_add aligned, switchOperand_add, mapError_bind]
  congr 1
  funext pairs
  split <;> rfl

theorem wideLength_add :
    wideLength (offset + distance) operands =
      (wideLength offset operands).mapError (Fault.shift distance) := by
  cases operands <;> rfl

/-- The length of an instruction depends on its offset only through the padding of switches. -/
theorem encodedLength_add (aligned : 4 ∣ distance) :
    encodedLength (offset + distance) opcode operands =
      (encodedLength offset opcode operands).mapError (Fault.shift distance) := by
  unfold encodedLength
  split
  · exact tableSwitchLength_add aligned
  · exact lookupSwitchLength_add aligned
  · exact wideLength_add
  · cases fixedLength? opcode <;> rfl

/-- What is decoded at an offset moves along with it. -/
theorem decode_add (aligned : 4 ∣ distance) :
    decode (offset + distance) opcode operands =
      InstructionStream.shiftItem distance (decode offset opcode operands) := by
  unfold decode
  rw [encodedLength_add aligned]
  cases encodedLength offset opcode operands with
  | error fault => rfl
  | ok length =>
      dsimp only [Except.mapError]
      split <;> rfl

end Instruction

/-! ## Streams -/

/-- Decoding the same bytes further on ends in the same stream with all offsets moved. -/
theorem Decodes.shift {offset distance : Nat} {bytes : Bytes} {stream : InstructionStream}
    (aligned : 4 ∣ distance) (decodes : Decodes offset bytes stream) :
    Decodes (offset + distance) bytes (stream.shift distance) := by
  induction decodes with
  | exhausted offset => exact .exhausted _
  | fault refused =>
      apply Decodes.fault
      rw [Instruction.decode_add aligned, refused]
      rfl
  | @step offset opcode operands instruction stream decoded _ ih =>
      have moved : Instruction.decode (offset + distance) opcode operands =
          .ok (instruction.shift distance) := by
        rw [Instruction.decode_add aligned, decoded]
        rfl
      rw [Nat.add_right_comm] at ih
      exact .step moved ih

/-- Behind a code that decodes without a fault, decoding goes on with what stands there. -/
theorem Decodes.append {offset : Nat} {front back : Bytes} {first second : InstructionStream}
    (decodes : Decodes offset front first) (decodable : first.fault = none)
    (later : Decodes (offset + front.length) back second) :
    Decodes offset (front ++ back) ⟨first.instructions ++ second.instructions, second.fault⟩ := by
  induction decodes with
  | exhausted offset => exact later
  | fault refused => cases decodable
  | @step offset opcode operands instruction stream decoded _ ih =>
      rcases Instruction.length_of_decode decoded with ⟨positive, inside⟩
      have own : (operands.take (instruction.length - 1)).length = instruction.length - 1 :=
        List.length_take_of_le (by omega)
      have whole : operands.take (instruction.length - 1) ++
          operands.drop (instruction.length - 1) = operands := List.take_append_drop _ _
      have place : offset + instruction.length + (operands.drop (instruction.length - 1)).length =
          offset + (opcode :: operands).length := by
        rw [List.length_drop, List.length_cons]
        omega
      have rest := ih decodable (place ▸ later)
      -- The instruction is decoded from its own bytes, behind which there are now more.
      have still : Instruction.decode offset opcode (operands ++ back) = .ok instruction := by
        rw [← whole] at decoded
        rw [← whole, List.append_assoc]
        exact Instruction.decode_append decoded (by omega) _
      rw [← List.drop_append_of_le_length (by omega)] at rest
      exact .step still rest

namespace CodeBody

/-- The items of a code that decodes without a fault come first wherever the code stands in front of
another. If four divides its length, they are followed by the items of the other code, all of whose
offsets have moved by that length. -/
theorem items_append {whole front back : CodeBody} (joined : whole.code = front.code ++ back.code)
    (decodable : front.instructions.fault = none) :
    front.instructions.items <+: whole.instructions.items ∧
      (4 ∣ front.code.length →
        whole.instructions.items = front.instructions.items ++
          back.instructions.items.map (InstructionStream.shiftItem front.code.length)) := by
  have decodes : Decodes 0 front.code front.instructions :=
    InstructionStream.decodes_ofBytes front.code
  have items_eq {second : InstructionStream}
      (later : Decodes (0 + front.code.length) back.code second) :
      whole.instructions.items = front.instructions.items ++ second.items := by
    have both := decodes.append decodable later
    rw [← joined] at both
    have stream_eq : whole.instructions =
        ⟨front.instructions.instructions ++ second.instructions, second.fault⟩ :=
      (InstructionStream.decodes_ofBytes whole.code).unique both
    simp [stream_eq, InstructionStream.items, decodable]
  constructor
  · rcases InstructionStream.exists_decodes_decodeOnto [] (0 + front.code.length) back.code with
      ⟨second, later, _⟩
    exact ⟨second.items, (items_eq later).symm⟩
  · intro aligned
    have later := (InstructionStream.decodes_ofBytes back.code).shift aligned
    rw [items_eq later, InstructionStream.items_shift]
    rfl

/-- A code of twenty bytes: three instructions and a table switch with one case, without padding. -/
def switchAtThree : CodeBody :=
  ⟨[0x03, 0x04, 0x05, 0xAA, 0, 0, 0, 16, 0, 0, 0, 1, 0, 0, 0, 1, 0, 0, 0, 16], none⟩

/-- A code with a lookup switch of no cases behind three bytes of padding, a call, and a table switch
whose operands are missing. -/
def switchesAtStart : CodeBody :=
  ⟨[0xAB, 0, 0, 0, 0, 0, 0, 8, 0, 0, 0, 0, 0xB6, 0, 7, 0xAA, 0], some #[⟨0, 5⟩]⟩

theorem items_append_switches :
    switchAtThree.instructions.fault = none ∧ 4 ∣ switchAtThree.code.length ∧
      switchesAtStart.instructions.items =
        [.ok ⟨0, 0xAB, 12, .other⟩, .ok ⟨12, 0xB6, 3, .invoke .virtual 7⟩,
          .error (.truncated .switchOperands 15 9 2)] ∧
      (CodeBody.mk (switchAtThree.code ++ switchesAtStart.code) none).instructions.items =
        switchAtThree.instructions.items ++
          [.ok ⟨20, 0xAB, 12, .other⟩, .ok ⟨32, 0xB6, 3, .invoke .virtual 7⟩,
            .error (.truncated .switchOperands 35 9 2)] := by
  have decodable : switchAtThree.instructions.fault = none := by decide +kernel
  have aligned : 4 ∣ switchAtThree.code.length := by decide
  have items_eq : switchesAtStart.instructions.items =
      [.ok ⟨0, 0xAB, 12, .other⟩, .ok ⟨12, 0xB6, 3, .invoke .virtual 7⟩,
        .error (.truncated .switchOperands 15 9 2)] := by decide +kernel
  let whole : CodeBody := ⟨switchAtThree.code ++ switchesAtStart.code, none⟩
  have code_eq : whole.code = switchAtThree.code ++ switchesAtStart.code := rfl
  have joined := (items_append code_eq decodable).2 aligned
  rw [items_eq] at joined
  exact ⟨decodable, aligned, items_eq, joined⟩

/-- Behind three bytes the same lookup switch has no padding, and takes other bytes for its operands. -/
example :
    (CodeBody.mk [0xAB, 0, 0, 0, 0, 0, 0, 8, 0, 0, 0, 0] none).instructions =
        ⟨[⟨0, 0xAB, 12, .other⟩], none⟩ ∧
      (CodeBody.mk ([0, 0, 0] ++ [0xAB, 0, 0, 0, 0, 0, 0, 8, 0, 0, 0, 0]) none).instructions.fault =
        some (.truncated .instruction 3 16393 12) := by
  decide +kernel

end CodeBody

end ApiCoverage.ClassFile
