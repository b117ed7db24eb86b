import ApiCoverage.Proofs.ClassFile.Tiling

/-!
# Codes cut where decoding stops

An instruction is decoded from its own bytes, whatever stands behind them. So a code that is cut
where its decoding stops still has the instructions before the cut, and its decoding comes to an end
without a fault. The offset that a fault of the code names is the place of the cut.
-/

namespace ApiCoverage.ClassFile

/-- The offset that a fault names, if it names one. -/
def Fault.offset? : Fault → Option Nat
  | truncated _ offset _ _ => some offset
  | invalidOpcode _ offset => some offset
  | malformed _ offset => some offset
  | _ => none

theorem Fault.StopsAt.offset?_eq {fault : Fault} {offset available : Nat}
    (stops : fault.StopsAt offset available) : fault.offset? = some offset := by
  cases stops <;> rfl

namespace Instruction

variable {offset distance : Nat} {opcode : UInt8} {front back : Bytes} {instruction : Instruction}

/-! ## What stands behind an instruction -/

theorem switchOperand_append (inside : distance + 4 ≤ front.length) (back : Bytes) :
    switchOperand offset distance (front ++ back) = switchOperand offset distance front := by
  have enough : 4 ≤ (front.drop distance).length := by
    rw [List.length_drop]
    omega
  have shorter : Bytes.split? 4 (front.drop distance) =
      some ((front.drop distance).take 4, (front.drop distance).drop 4) :=
    Bytes.split?_eq_some_iff.2 ⟨(List.take_append_drop 4 _).symm, List.length_take_of_le enough⟩
  have longer : Bytes.split? 4 ((front ++ back).drop distance) =
      some ((front.drop distance).take 4, (front.drop distance).drop 4 ++ back) := by
    refine Bytes.split?_eq_some_iff.2 ⟨?_, List.length_take_of_le enough⟩
    rw [← List.append_assoc, List.take_append_drop, List.drop_append_of_le_length (by omega)]
  simp only [switchOperand, shorter, longer]

theorem tableSwitchLength_append (inside : switchPadding offset + 12 ≤ front.length)
    (back : Bytes) :
    tableSwitchLength offset (front ++ back) = tableSwitchLength offset front := by
  have low : switchOperand offset (switchPadding offset + 4) (front ++ back) =
      switchOperand offset (switchPadding offset + 4) front := switchOperand_append (by omega) back
  have high : switchOperand offset (switchPadding offset + 8) (front ++ back) =
      switchOperand offset (switchPadding offset + 8) front := switchOperand_append (by omega) back
  simp only [tableSwitchLength, low, high]

theorem lookupSwitchLength_append (inside : switchPadding offset + 8 ≤ front.length)
    (back : Bytes) :
    lookupSwitchLength offset (front ++ back) = lookupSwitchLength offset front := by
  simp only [lookupSwitchLength, switchOperand_append (show _ + 4 + 4 ≤ _ by omega)]

theorem le_tableSwitchLength {operands : Bytes} {length : Nat}
    (given : tableSwitchLength offset operands = .ok length) :
    1 + switchPadding offset + 12 ≤ length := by
  rcases Outcome.bind_eq_ok_iff.1 given with ⟨low, _, given⟩
  rcases Outcome.bind_eq_ok_iff.1 given with ⟨high, _, given⟩
  split at given
  · cases given
  · cases given
    omega

theorem le_lookupSwitchLength {operands : Bytes} {length : Nat}
    (given : lookupSwitchLength offset operands = .ok length) :
    1 + switchPadding offset + 8 ≤ length := by
  rcases Outcome.bind_eq_ok_iff.1 given with ⟨pairs, _, given⟩
  split at given
  · cases given
  · cases given
    omega

/-- The bytes of an instruction decide its length. -/
theorem encodedLength_append
    (given : encodedLength offset opcode (front ++ back) = .ok (1 + front.length))
    (other : Bytes) : encodedLength offset opcode (front ++ other) = .ok (1 + front.length) := by
  unfold encodedLength at given ⊢
  split at given
  · have inside := le_tableSwitchLength given
    rw [tableSwitchLength_append (by omega)] at given ⊢
    exact given
  · have inside := le_lookupSwitchLength given
    rw [lookupSwitchLength_append (by omega)] at given ⊢
    exact given
  · cases front with
    | cons widened rest => exact given
    | nil =>
        cases back with
        | nil => cases given
        | cons widened rest =>
            have two : (if widened == incrementOpcode then 6 else 4) = 1 := Except.ok.inj given
            split at two <;> cases two
  · exact given

/-- The bytes of an instruction decide what it means. -/
theorem operationOf_append
    (given : encodedLength offset opcode (front ++ back) = .ok (1 + front.length))
    (other : Bytes) : operationOf opcode (front ++ other) = operationOf opcode (front ++ back) := by
  unfold operationOf
  cases called : InvokeKind.ofOpcode? opcode with
  | none => rfl
  | some kind =>
      rw [InvokeKind.ofOpcode?_eq_some_iff] at called
      subst called
      rw [encodedLength_opcode] at given
      have size := Except.ok.inj given
      have two : 2 ≤ front.length := by
        split at size <;> omega
      rw [List.take_append_of_le_length two, List.take_append_of_le_length two]

theorem length_of_decode {operands : Bytes}
    (decoded : decode offset opcode operands = .ok instruction) :
    1 ≤ instruction.length ∧ instruction.length ≤ 1 + operands.length := by
  rcases decode_eq_ok_iff.1 decoded with ⟨length, given, enough, rfl⟩
  exact ⟨one_le_encodedLength given, enough⟩

/-- An instruction is decoded from its own bytes, whatever stands behind them. -/
theorem decode_append (decoded : decode offset opcode (front ++ back) = .ok instruction)
    (size : instruction.length = 1 + front.length) (other : Bytes) :
    decode offset opcode (front ++ other) = .ok instruction := by
  rcases decode_eq_ok_iff.1 decoded with ⟨length, given, enough, rfl⟩
  obtain rfl : length = 1 + front.length := size
  refine decode_eq_ok_iff.2 ⟨_, encodedLength_append given other, ?_, ?_⟩
  · rw [List.length_append]
    omega
  · rw [operationOf_append given other]

end Instruction

/-! ## Streams -/

/-- A code that is cut where its decoding stops decodes to the same instructions without a fault. -/
theorem Decodes.cut {offset : Nat} {bytes : Bytes} {stream : InstructionStream}
    (decodes : Decodes offset bytes stream) :
    Decodes offset (bytes.take (sumBy Instruction.length stream.instructions))
      ⟨stream.instructions, none⟩ := by
  induction decodes with
  | exhausted offset => exact .exhausted offset
  | fault refused => exact .exhausted _
  | @step offset opcode operands instruction stream decoded _ ih =>
      have whole : operands.take (instruction.length - 1) ++
          operands.drop (instruction.length - 1) = operands := List.take_append_drop _ _
      rcases Instruction.length_of_decode decoded with ⟨positive, inside⟩
      have size : (operands.take (instruction.length - 1)).length = instruction.length - 1 :=
        List.length_take_of_le (by omega)
      have kept : (opcode :: operands).take (instruction.length +
            sumBy Instruction.length stream.instructions) =
          opcode :: (operands.take (instruction.length - 1) ++
            (operands.drop (instruction.length - 1)).take
              (sumBy Instruction.length stream.instructions)) := by
        rw [← List.take_add, ← List.take_succ_cons]
        congr 1
        omega
      have later : Decodes (offset + instruction.length)
          ((operands.take (instruction.length - 1) ++
            (operands.drop (instruction.length - 1)).take
              (sumBy Instruction.length stream.instructions)).drop (instruction.length - 1))
          ⟨stream.instructions, none⟩ := by
        rwa [List.drop_left' size]
      -- Other bytes than before stand behind the instruction, which is decoded from its own.
      rw [← whole] at decoded
      rw [sumBy_cons, kept]
      exact .step (Instruction.decode_append decoded (by omega) _) later

/-- A fault ends a stream where the instructions before it end. -/
theorem Decodes.exists_refused {offset : Nat} {bytes : Bytes} {stream : InstructionStream}
    {fault : Fault} (decodes : Decodes offset bytes stream) (ends : stream.fault = some fault) :
    ∃ opcode operands,
      bytes.drop (sumBy Instruction.length stream.instructions) = opcode :: operands ∧
        Instruction.decode (offset + sumBy Instruction.length stream.instructions) opcode operands =
          .error fault := by
  induction decodes with
  | exhausted offset => cases ends
  | @fault offset opcode operands other refused =>
      cases ends
      exact ⟨opcode, operands, rfl, refused⟩
  | @step offset opcode operands instruction stream decoded _ ih =>
      rcases ih ends with ⟨next, rest, left, refused⟩
      have behind : (opcode :: operands).drop (0 + instruction.length) =
          operands.drop (instruction.length - 1) :=
        drop_length_of_drop rfl (Instruction.length_of_decode decoded).1
      rw [Nat.zero_add] at behind
      refine ⟨next, rest, ?_, by rwa [sumBy_cons, ← Nat.add_assoc]⟩
      rw [sumBy_cons, ← List.drop_drop, behind]
      exact left

theorem InstructionStream.ofBytes_take (code : Bytes) :
    ofBytes (code.take (sumBy Instruction.length (ofBytes code).instructions)) =
      ⟨(ofBytes code).instructions, none⟩ :=
  (decodes_ofBytes _).unique (decodes_ofBytes code).cut

namespace CodeBody

/-- The decoding of a body stops at an offset with a fault: the instructions before it cover the code
up to the offset, no instruction can be decoded there, and the fault names the offset. -/
structure Stops (body : CodeBody) (offset : Nat) (fault : Fault) : Prop where
  ends : body.instructions.fault = some fault
  covers : Tiles body.code 0 body.instructions.instructions offset
  inside : offset < body.code.length
  refused : Instruction.decodeAt? body.code offset = some (.error fault)
  names : fault.offset? = some offset

/-- The body with its code cut where decoding stops, and with the same line table. -/
def cut (body : CodeBody) : CodeBody :=
  match body.instructions.fault.bind Fault.offset? with
  | none => body
  | some offset => { body with code := body.code.take offset }

variable {body : CodeBody} {fault : Fault}

/-- Decoding stops where the lengths of the instructions add up to. -/
theorem stops_of_fault (ends : body.instructions.fault = some fault) :
    body.Stops (sumBy Instruction.length body.instructions.instructions) fault := by
  rcases body.instructions_tile with ⟨_, covers, ending⟩
  rw [ends] at ending
  rcases (InstructionStream.decodes_ofBytes body.code).exists_refused ends with
    ⟨opcode, operands, left, refused⟩
  rw [Nat.zero_add] at refused
  exact ⟨ends, covers, ending.1, by rw [← refused]; exact Instruction.decodeAt?_eq left,
    ending.2.offset?_eq⟩

theorem cut_of_stops {offset : Nat} (stops : body.Stops offset fault) :
    body.cut = { body with code := body.code.take offset } := by
  rw [cut, stops.ends, Option.bind_some, stops.names]

theorem cut_of_decodable (decodable : body.instructions.fault = none) : body.cut = body := by
  rw [cut, decodable, Option.bind_none]

@[simp]
theorem instructions_cut (body : CodeBody) :
    body.cut.instructions = ⟨body.instructions.instructions, none⟩ := by
  cases ends : body.instructions.fault with
  | none => rw [cut_of_decodable ends, ← ends]
  | some fault =>
      rw [cut_of_stops (stops_of_fault ends)]
      exact InstructionStream.ofBytes_take body.code

@[simp]
theorem lines_cut (body : CodeBody) : body.cut.lines = body.lines := by
  unfold cut
  split <;> rfl

@[simp]
theorem lineFor_cut (body : CodeBody) (offset : Nat) :
    body.cut.lineFor offset = body.lineFor offset := by
  rw [lineFor, lineFor, lines_cut]

end CodeBody

end ApiCoverage.ClassFile
