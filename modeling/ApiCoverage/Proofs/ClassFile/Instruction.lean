import ApiCoverage.ClassFile.CodeBody
import ApiCoverage.Proofs.Outcome
import ApiCoverage.Sum

/-!
# Decoding instructions one after another

Decoding an instruction needs its opcode and the bytes after it. It succeeds when the length that the
encoding asks for is there; otherwise the fault names the offset of the instruction and, where bytes
are missing, how many there are. An instruction stream is the result of decoding steps, each on what
the one before it left: the relation `Decodes` has one case for each way in which a step can end, and
every code has exactly one stream in it.
-/

namespace ApiCoverage.ClassFile

/-- A fault at which the decoding of a code stops: it names the offset that decoding has come to, and if it
misses bytes, it knows how many there are and needs more. -/
inductive Fault.StopsAt (offset available : Nat) : Fault → Prop where
  | truncated (part : Part) {expected : Nat} (short : available < expected) :
      StopsAt offset available (.truncated part offset expected available)
  | invalidOpcode (opcode : UInt8) : StopsAt offset available (.invalidOpcode opcode offset)
  | malformed (part : Part) : StopsAt offset available (.malformed part offset)

/-! ## Calls -/

namespace InvokeKind

variable {opcode : UInt8} {kind : InvokeKind}

theorem ofOpcode?_eq_some_iff : ofOpcode? opcode = some kind ↔ opcode = kind.opcode := by
  constructor
  · intro found
    unfold ofOpcode? at found
    split at found
    · next number => cases found; exact UInt8.toNat_inj.1 number
    · next number => cases found; exact UInt8.toNat_inj.1 number
    · next number => cases found; exact UInt8.toNat_inj.1 number
    · next number => cases found; exact UInt8.toNat_inj.1 number
    · cases found
  · rintro rfl
    cases kind <;> rfl

/-- The opcodes of calls are four consecutive numbers. -/
theorem exists_ofOpcode?_iff :
    (∃ kind, ofOpcode? opcode = some kind) ↔ 0xB6 ≤ opcode.toNat ∧ opcode.toNat ≤ 0xB9 := by
  constructor
  · rintro ⟨kind, found⟩
    rw [ofOpcode?_eq_some_iff] at found
    subst found
    cases kind <;> decide
  · rintro ⟨first, last⟩
    have number : opcode.toNat = 0xB6 ∨ opcode.toNat = 0xB7 ∨ opcode.toNat = 0xB8 ∨
        opcode.toNat = 0xB9 := by omega
    rcases number with number | number | number | number
    · exact ⟨virtual, ofOpcode?_eq_some_iff.2 (UInt8.toNat_inj.1 number)⟩
    · exact ⟨special, ofOpcode?_eq_some_iff.2 (UInt8.toNat_inj.1 number)⟩
    · exact ⟨static, ofOpcode?_eq_some_iff.2 (UInt8.toNat_inj.1 number)⟩
    · exact ⟨interface, ofOpcode?_eq_some_iff.2 (UInt8.toNat_inj.1 number)⟩

end InvokeKind

namespace Instruction

variable {offset length : Nat} {opcode : UInt8} {operands : Bytes} {fault : Fault}
  {instruction : Instruction}

/-! ## Lengths -/

/-- The number of bytes of a call. -/
theorem encodedLength_opcode (kind : InvokeKind) :
    encodedLength offset kind.opcode operands = .ok (if kind = .interface then 5 else 3) := by
  cases kind <;> rfl

theorem stopsAt_of_switchOperand {distance : Nat}
    (refused : switchOperand offset distance operands = .error fault) :
    fault.StopsAt offset (1 + operands.length) := by
  unfold switchOperand at refused
  split at refused
  · cases refused
  · next missing =>
      cases refused
      rw [Bytes.split?_eq_none_iff, List.length_drop] at missing
      exact .truncated _ (by omega)

theorem stopsAt_of_tableSwitchLength (refused : tableSwitchLength offset operands = .error fault) :
    fault.StopsAt offset (1 + operands.length) := by
  unfold tableSwitchLength at refused
  rcases Outcome.bind_eq_error_iff.1 refused with first | ⟨low, _, refused⟩
  · exact stopsAt_of_switchOperand first
  rcases Outcome.bind_eq_error_iff.1 refused with second | ⟨high, _, refused⟩
  · exact stopsAt_of_switchOperand second
  split at refused
  · cases refused
    exact .malformed _
  · cases refused

theorem stopsAt_of_lookupSwitchLength (refused : lookupSwitchLength offset operands = .error fault) :
    fault.StopsAt offset (1 + operands.length) := by
  unfold lookupSwitchLength at refused
  rcases Outcome.bind_eq_error_iff.1 refused with first | ⟨pairs, _, refused⟩
  · exact stopsAt_of_switchOperand first
  split at refused
  · cases refused
    exact .malformed _
  · cases refused

theorem stopsAt_of_wideLength (refused : wideLength offset operands = .error fault) :
    fault.StopsAt offset (1 + operands.length) := by
  cases operands with
  | nil =>
      cases refused
      exact .truncated _ (by decide)
  | cons widened rest => cases refused

theorem stopsAt_of_encodedLength (refused : encodedLength offset opcode operands = .error fault) :
    fault.StopsAt offset (1 + operands.length) := by
  unfold encodedLength at refused
  split at refused
  · exact stopsAt_of_tableSwitchLength refused
  · exact stopsAt_of_lookupSwitchLength refused
  · exact stopsAt_of_wideLength refused
  · split at refused
    · cases refused
    · cases refused
      exact .invalidOpcode _

theorem one_le_fixedLength (found : fixedLength? opcode = some length) : 1 ≤ length := by
  rcases Option.map_eq_some_iff.1 found with ⟨row, listed, rfl⟩
  have positive : ∀ row ∈ fixedLengths, 1 ≤ row.2.2 := by decide
  exact positive row (List.mem_of_find?_eq_some listed)

/-- Every instruction has an opcode, whatever its length is decided by. -/
theorem one_le_encodedLength (given : encodedLength offset opcode operands = .ok length) :
    1 ≤ length := by
  unfold encodedLength at given
  split at given
  · rcases Outcome.bind_eq_ok_iff.1 given with ⟨low, _, given⟩
    rcases Outcome.bind_eq_ok_iff.1 given with ⟨high, _, given⟩
    split at given
    · cases given
    · cases given
      omega
  · rcases Outcome.bind_eq_ok_iff.1 given with ⟨pairs, _, given⟩
    split at given
    · cases given
    · cases given
      omega
  · cases operands with
    | nil => cases given
    | cons widened rest =>
        cases given
        split <;> decide
  · split at given
    · next found =>
        cases given
        exact one_le_fixedLength found
    · cases given

/-! ## Single instructions -/

/-- An instruction is decoded when as many bytes are there as its length says. -/
theorem decode_eq_ok_iff :
    decode offset opcode operands = .ok instruction ↔
      ∃ length, encodedLength offset opcode operands = .ok length ∧ length ≤ 1 + operands.length ∧
        instruction = ⟨offset, opcode, length, operationOf opcode operands⟩ := by
  unfold decode
  cases encodedLength offset opcode operands with
  | error fault => simp
  | ok length =>
      have enough : Bytes.hasAtLeast (length - 1) operands = true ↔ length ≤ 1 + operands.length := by
        rw [Bytes.hasAtLeast_iff]
        omega
      simp only [enough, Except.ok.injEq, exists_eq_left']
      by_cases fits : length ≤ 1 + operands.length
      · simp [fits, eq_comm]
      · simp [fits]

/-- A fault names the offset of the instruction that cannot be decoded. -/
theorem stopsAt_of_decode (refused : decode offset opcode operands = .error fault) :
    fault.StopsAt offset (1 + operands.length) := by
  unfold decode at refused
  split at refused
  · next stopped =>
      cases refused
      exact stopsAt_of_encodedLength stopped
  · split at refused
    · cases refused
    · next missing =>
        cases refused
        rw [Bytes.hasAtLeast_iff] at missing
        exact .truncated _ (by omega)

theorem offset_of_decode (decoded : decode offset opcode operands = .ok instruction) :
    instruction.offset = offset := by
  rcases decode_eq_ok_iff.1 decoded with ⟨length, _, _, rfl⟩
  rfl

/-- Two bytes of operands belong to every call that is decoded. -/
theorem two_le_length_of_decode {kind : InvokeKind}
    (decoded : decode offset kind.opcode operands = .ok instruction) : 2 ≤ operands.length := by
  rcases decode_eq_ok_iff.1 decoded with ⟨length, given, enough, _⟩
  rw [encodedLength_opcode] at given
  cases given
  split at enough <;> omega

end Instruction

/-! ## Streams -/

/-- Decoding the bytes at an offset ends in a stream. -/
inductive Decodes : Nat → Bytes → InstructionStream → Prop where
  | exhausted (offset : Nat) : Decodes offset [] ⟨[], none⟩
  | fault {offset : Nat} {opcode : UInt8} {operands : Bytes} {fault : Fault}
      (refused : Instruction.decode offset opcode operands = .error fault) :
      Decodes offset (opcode :: operands) ⟨[], some fault⟩
  | step {offset : Nat} {opcode : UInt8} {operands : Bytes} {instruction : Instruction}
      {stream : InstructionStream}
      (decoded : Instruction.decode offset opcode operands = .ok instruction)
      (later : Decodes (offset + instruction.length) (operands.drop (instruction.length - 1))
        stream) :
      Decodes offset (opcode :: operands)
        ⟨instruction :: stream.instructions, stream.fault⟩

namespace InstructionStream

/-- What is decoded comes behind the instructions already decoded. -/
theorem exists_decodes_decodeOnto (done : List Instruction) (offset : Nat) (bytes : Bytes) :
    ∃ stream, Decodes offset bytes stream ∧
      decodeOnto done offset bytes = ⟨done.reverse ++ stream.instructions, stream.fault⟩ := by
  fun_induction decodeOnto done offset bytes with
  | case1 done offset => exact ⟨_, .exhausted offset, by simp⟩
  | case2 done offset opcode operands fault refused => exact ⟨_, .fault refused, by simp⟩
  | case3 done offset opcode operands instruction decoded ih =>
      rcases ih with ⟨stream, later, found⟩
      exact ⟨_, .step decoded later, by simp [found]⟩

/-- The stream of a code is what decoding it from the start ends in. -/
theorem decodes_ofBytes (code : Bytes) : Decodes 0 code (ofBytes code) := by
  rcases exists_decodes_decodeOnto [] 0 code with ⟨stream, decodes, found⟩
  rw [ofBytes, found]
  exact decodes

end InstructionStream

/-- Decoding ends in one stream only. -/
theorem Decodes.unique {offset : Nat} {bytes : Bytes} {first second : InstructionStream}
    (left : Decodes offset bytes first) (right : Decodes offset bytes second) : first = second := by
  induction left generalizing second with
  | exhausted =>
      cases right
      rfl
  | fault refused =>
      cases right with
      | fault other =>
          rw [refused] at other
          cases other
          rfl
      | step decoded =>
          rw [refused] at decoded
          cases decoded
  | step decoded _ ih =>
      cases right with
      | fault refused =>
          rw [decoded] at refused
          cases refused
      | step other later =>
          rw [decoded] at other
          cases other
          rw [ih later]

end ApiCoverage.ClassFile
