import ApiCoverage.Proofs.ClassFile.Decoder

/-!
# Instructions tile the code

The instructions of a code stand one behind another without gaps, each of them within the code, and
the first at its start. Decoding ends at the end of the code or at a fault, which then stands right
behind the last instruction. So the lengths of the instructions tell where decoding has come to.
-/

namespace ApiCoverage.ClassFile

/-- An instruction stands in a code: its bytes are there, the first of them is its opcode, and it is a
call when the opcode is one of a call, of the slot that the two bytes behind the opcode say. -/
structure Instruction.StandsIn (code : Bytes) (instruction : Instruction) : Prop where
  positive : 1 ≤ instruction.length
  inside : instruction.offset + instruction.length ≤ code.length
  opcode : code[instruction.offset]? = some instruction.opcode
  calls : (∃ kind slot, instruction.operation = .invoke kind slot) ↔
    0xB6 ≤ instruction.opcode.toNat ∧ instruction.opcode.toNat ≤ 0xB9
  slot : ∀ kind slot, instruction.operation = .invoke kind slot →
    instruction.opcode = kind.opcode ∧
      ∃ high low, code[instruction.offset + 1]? = some high ∧
        code[instruction.offset + 2]? = some low ∧ slot.toNat = 256 * high.toNat + low.toNat

/-- Instructions stand in a code one behind another, from one offset to another. -/
inductive Tiles (code : Bytes) : Nat → List Instruction → Nat → Prop where
  | nil (offset : Nat) : Tiles code offset [] offset
  | cons {instruction : Instruction} {rest : List Instruction} {stop : Nat}
      (stands : instruction.StandsIn code)
      (behind : Tiles code (instruction.offset + instruction.length) rest stop) :
      Tiles code instruction.offset (instruction :: rest) stop

/-- The lengths of tiles add up to the distance that they cover. -/
theorem Tiles.add_sumBy_eq {code : Bytes} {start stop : Nat} {instructions : List Instruction}
    (tiles : Tiles code start instructions stop) :
    start + sumBy Instruction.length instructions = stop := by
  induction tiles with
  | nil => rfl
  | cons _ _ ih => rw [sumBy_cons, ← Nat.add_assoc, ih]

/-- Where decoding ends: at the end of the code, or before it at a fault that names this place. -/
def EndsDecoding (code : Bytes) (stop : Nat) : Option Fault → Prop
  | none => stop = code.length
  | some fault => stop < code.length ∧ fault.StopsAt stop (code.length - stop)

namespace Instruction

variable {code operands : Bytes} {offset : Nat} {opcode : UInt8} {instruction : Instruction}

/-- A word of two bytes is read with its high byte first. -/
theorem toNat_toUInt16_pair (high low : UInt8) :
    (Bytes.toUInt16 [high, low]).toNat = 256 * high.toNat + low.toNat := by
  have highBound := high.toNat_lt
  have lowBound := low.toNat_lt
  simp only [Bytes.toUInt16, Bytes.toNat, List.foldl_cons, List.foldl_nil, UInt16.toNat_ofNat']
  omega

/-- An instruction is a call when its opcode is one of a call. -/
theorem operationOf_eq_invoke_iff {kind : InvokeKind} {slot : UInt16} :
    operationOf opcode operands = .invoke kind slot ↔
      opcode = kind.opcode ∧ slot = Bytes.toUInt16 (operands.take 2) := by
  rw [← InvokeKind.ofOpcode?_eq_some_iff, operationOf]
  cases InvokeKind.ofOpcode? opcode with
  | none => simp
  | some other => simp [eq_comm]

theorem exists_operationOf_eq_invoke_iff :
    (∃ kind slot, operationOf opcode operands = .invoke kind slot) ↔
      0xB6 ≤ opcode.toNat ∧ opcode.toNat ≤ 0xB9 := by
  rw [← InvokeKind.exists_ofOpcode?_iff]
  simp only [operationOf_eq_invoke_iff, InvokeKind.ofOpcode?_eq_some_iff]
  constructor
  · rintro ⟨kind, _, same, _⟩
    exact ⟨kind, same⟩
  · rintro ⟨kind, same⟩
    exact ⟨kind, _, same, rfl⟩

/-- A decoded instruction stands in its code. -/
theorem standsIn_of_decode (left : code.drop offset = opcode :: operands)
    (decoded : decode offset opcode operands = .ok instruction) : instruction.StandsIn code := by
  have size := length_of_drop left
  have two {kind : InvokeKind} (same : opcode = kind.opcode) : 2 ≤ operands.length :=
    two_le_length_of_decode (same ▸ decoded)
  rcases decode_eq_ok_iff.1 decoded with ⟨length, given, enough, rfl⟩
  refine ⟨one_le_encodedLength given, ?_, getElem?_of_drop left, exists_operationOf_eq_invoke_iff,
    ?_⟩
  · change offset + length ≤ code.length
    omega
  · intro kind slot called
    rcases operationOf_eq_invoke_iff.1 called with ⟨same, rfl⟩
    refine ⟨same, ?_⟩
    have second := two same
    rcases operands with _ | ⟨high, _ | ⟨low, rest⟩⟩
    · cases second
    · exact absurd second (by simp)
    · exact ⟨high, low, getElem?_add_of_drop left 0, getElem?_add_of_drop left 1,
        toNat_toUInt16_pair high low⟩

end Instruction

/-- What is decoded from the bytes that are left of a code tiles it up to where decoding ends. -/
theorem Decodes.exists_tiles {code bytes : Bytes} {offset : Nat} {stream : InstructionStream}
    (decodes : Decodes offset bytes stream) (inside : offset ≤ code.length)
    (left : code.drop offset = bytes) :
    ∃ stop, Tiles code offset stream.instructions stop ∧ EndsDecoding code stop stream.fault := by
  induction decodes with
  | exhausted offset =>
      rw [List.drop_eq_nil_iff] at left
      exact ⟨offset, .nil offset, Nat.le_antisymm inside left⟩
  | @fault offset opcode operands fault refused =>
      have size := length_of_drop left
      have available : code.length - offset = 1 + operands.length := by omega
      refine ⟨offset, .nil offset, by omega, ?_⟩
      rw [available]
      exact Instruction.stopsAt_of_decode refused
  | @step offset opcode operands instruction stream decoded _ ih =>
      have stands := Instruction.standsIn_of_decode left decoded
      have same : instruction.offset = offset := Instruction.offset_of_decode decoded
      subst same
      rcases ih stands.inside (drop_length_of_drop left stands.positive) with ⟨stop, tiles, ends⟩
      exact ⟨stop, .cons stands tiles, ends⟩

namespace CodeBody

/-- The instructions of a body tile its code from the start. A decoder yields them one by one, then at
most one fault and nothing more, and never looks up a byte outside of the code. Decoding ends where
the lengths of the instructions add up to: at the end of the code, or at a fault within it that names
this place. -/
theorem instructions_tile (body : CodeBody) :
    Decoder.Yields body.code .start body.instructions.items ∧
      Tiles body.code 0 body.instructions.instructions
        (sumBy Instruction.length body.instructions.instructions) ∧
      EndsDecoding body.code (sumBy Instruction.length body.instructions.instructions)
        body.instructions.fault := by
  have decodes : Decodes 0 body.code body.instructions :=
    InstructionStream.decodes_ofBytes body.code
  rcases decodes.exists_tiles (Nat.zero_le _) rfl with ⟨stop, tiles, ends⟩
  have lengths := tiles.add_sumBy_eq
  rw [Nat.zero_add] at lengths
  rw [lengths]
  exact ⟨Decoder.yields_start body.code, tiles, ends⟩

end CodeBody

end ApiCoverage.ClassFile
