import ApiCoverage.Proofs.ClassFile.Decoder
import Mathlib.Algebra.Group.Int.Defs
import Mathlib.Algebra.Group.Nat.Defs

/-!
# The lengths of switch instructions

The two switch instructions carry the size of their tables as signed words of 32 bits. Their lengths are
given here by one formula over unbounded integers, and a switch is decoded exactly when its operands are
there, make sense, and ask for no more bytes than there are.

A decoder that computes in words of 64 bits comes to the same lengths. Every result of its arithmetic is
checked against the range of its word, and for a code that fits in memory no operands make one leave it, so
it does not matter what would become of such a result.
-/

namespace ApiCoverage.ClassFile

open Outcome (ok_bind)

/-! ## Signed operands -/

/-- Four bytes of a code, the highest first, hold a signed number in two's complement. -/
def HoldsInt (code : Bytes) (position : Nat) (number : Int) : Prop :=
  ∃ first second third fourth : UInt8, code[position]? = some first ∧
    code[position + 1]? = some second ∧ code[position + 2]? = some third ∧
    code[position + 3]? = some fourth ∧ -2 ^ 31 ≤ number ∧ number < 2 ^ 31 ∧
    number % 2 ^ 32 =
      (2 ^ 24 * first.toNat + 2 ^ 16 * second.toNat + 2 ^ 8 * third.toNat + fourth.toNat : Nat)

theorem bmod_eq_iff {value : Nat} {number : Int} (small : value < 2 ^ 32) :
    Int.bmod value 0x100000000 = number ↔
      -2 ^ 31 ≤ number ∧ number < 2 ^ 31 ∧ number % 2 ^ 32 = value := by
  rw [Int.bmod_def]
  split <;> omega

theorem toNat_four (first second third fourth : UInt8) :
    Bytes.toNat [first, second, third, fourth] =
      2 ^ 24 * first.toNat + 2 ^ 16 * second.toNat + 2 ^ 8 * third.toNat + fourth.toNat := by
  simp only [Bytes.toNat, List.foldl_cons, List.foldl_nil]
  omega

theorem toInt32_eq_iff {first second third fourth : UInt8} {number : Int} :
    Bytes.toInt32 [first, second, third, fourth] = number ↔
      -2 ^ 31 ≤ number ∧ number < 2 ^ 31 ∧ number % 2 ^ 32 =
        (2 ^ 24 * first.toNat + 2 ^ 16 * second.toNat + 2 ^ 8 * third.toNat + fourth.toNat : Nat) := by
  have firstBound := first.toNat_lt
  have secondBound := second.toNat_lt
  have thirdBound := third.toNat_lt
  have fourthBound := fourth.toNat_lt
  rw [← toNat_four]
  apply bmod_eq_iff
  rw [toNat_four]
  omega

namespace Instruction

variable {code operands : Bytes} {offset position padding : Nat} {opcode : UInt8} {number : Int}

/-- The signed word at a position is the number that the bytes there hold. -/
theorem wordAt_eq_ok_iff :
    wordAt code offset position = .ok number ↔ HoldsInt code position number := by
  unfold wordAt
  split
  · next inside =>
      have size : (code.drop position).length = code.length - position := List.length_drop
      rcases left : code.drop position with
        _ | ⟨first, _ | ⟨second, _ | ⟨third, _ | ⟨fourth, rest⟩⟩⟩⟩
      case cons.cons.cons.cons =>
        have here : code[position]? = some first := getElem?_of_drop left
        have next : code[position + 1]? = some second := getElem?_add_of_drop left 0
        have afterNext : code[position + 2]? = some third := getElem?_add_of_drop left 1
        have last : code[position + 3]? = some fourth := getElem?_add_of_drop left 2
        simp only [HoldsInt, here, next, afterNext, last, Option.some.injEq, Except.ok.injEq,
          exists_and_left, exists_eq_left', List.take_succ_cons, List.take_zero]
        exact toInt32_eq_iff
      all_goals
        rw [left] at size
        simp only [List.length_nil, List.length_cons] at size
        omega
  · next outside =>
      constructor
      · exact nofun
      · rintro ⟨_, _, _, fourth, _, _, _, there, _⟩
        have inside := (List.getElem?_eq_some_iff.1 there).1
        omega

end Instruction

/-! ## Lengths over unbounded integers -/

/-- A switch instruction, by the operands that decide its length. -/
inductive Switch where
  /-- One case for every number from a lowest to a highest. -/
  | table (low high : Int)
  /-- One case for each of some pairs of a number and a jump. -/
  | lookup (pairs : Int)

namespace Switch

def opcode : Switch → UInt8
  | table _ _ => 0xAA
  | lookup _ => 0xAB

/-- The operands stand in a code, behind the four bytes of the default jump at a position. -/
def OperandsAt (code : Bytes) (position : Nat) : Switch → Prop
  | table low high => HoldsInt code (position + 4) low ∧ HoldsInt code (position + 8) high
  | lookup pairs => HoldsInt code (position + 4) pairs

/-- The operands make sense. -/
def IsOrdered : Switch → Prop
  | table low high => low ≤ high
  | lookup pairs => 0 ≤ pairs

/-- The number of bytes of a switch with some padding behind its opcode. -/
def length (padding : Nat) : Switch → Int
  | table low high => 1 + padding + 12 + 4 * (high - low + 1)
  | lookup pairs => 1 + padding + 8 + 8 * pairs

/-- A switch with some padding stands at an offset of a code. Its jumps need not be there. -/
structure StandsAt (switch : Switch) (code : Bytes) (offset padding : Nat) : Prop where
  head : code[offset]? = some switch.opcode
  operands : switch.OperandsAt code (offset + 1 + padding)

end Switch

namespace Instruction

variable {code operands : Bytes} {offset position padding length : Nat} {opcode : UInt8} {number : Int}

theorem tableSwitchLengthAt_eq_ok_iff :
    tableSwitchLengthAt code offset = .ok length ↔
      ∃ low high, (Switch.table low high).OperandsAt code (switchBase offset) ∧ low ≤ high ∧
        (Switch.table low high).length (switchPadding offset) = length := by
  have base := switchBase_eq offset
  simp only [tableSwitchLengthAt, Outcome.bind_eq_ok_iff, wordAt_eq_ok_iff, Switch.OperandsAt,
    Switch.length]
  constructor
  · rintro ⟨low, lowest, high, highest, given⟩
    split at given
    · cases given
    · next ordered =>
        cases given
        exact ⟨low, high, ⟨lowest, highest⟩, by omega, by omega⟩
  · rintro ⟨low, high, ⟨lowest, highest⟩, ordered, size⟩
    refine ⟨low, lowest, high, highest, ?_⟩
    rw [if_neg (Int.not_lt.2 ordered)]
    apply congrArg Except.ok
    omega

theorem lookupSwitchLengthAt_eq_ok_iff :
    lookupSwitchLengthAt code offset = .ok length ↔
      ∃ pairs, (Switch.lookup pairs).OperandsAt code (switchBase offset) ∧ 0 ≤ pairs ∧
        (Switch.lookup pairs).length (switchPadding offset) = length := by
  have base := switchBase_eq offset
  simp only [lookupSwitchLengthAt, Outcome.bind_eq_ok_iff, wordAt_eq_ok_iff, Switch.OperandsAt,
    Switch.length]
  constructor
  · rintro ⟨pairs, counted, given⟩
    split at given
    · cases given
    · next ordered =>
        cases given
        exact ⟨pairs, counted, by omega, by omega⟩
  · rintro ⟨pairs, counted, ordered, size⟩
    refine ⟨pairs, counted, ?_⟩
    rw [if_neg (Int.not_lt.2 ordered)]
    apply congrArg Except.ok
    omega

/-- The length of a switch is given when its operands are there and make sense. -/
theorem encodedLength_switch_eq_ok_iff (left : code.drop offset = opcode :: operands)
    (switches : opcode = 0xAA ∨ opcode = 0xAB) :
    encodedLength offset opcode operands = .ok length ↔
      ∃ switch : Switch, switch.StandsAt code offset (switchPadding offset) ∧ switch.IsOrdered ∧
        switch.length (switchPadding offset) = length := by
  have head := getElem?_of_drop left
  rw [← encodedLengthAt_eq left]
  constructor
  · intro given
    rcases switches with rfl | rfl
    · obtain ⟨low, high, there, ordered, size⟩ := tableSwitchLengthAt_eq_ok_iff.1 given
      rw [switchBase_eq] at there
      exact ⟨.table low high, ⟨head, there⟩, ordered, size⟩
    · obtain ⟨pairs, there, ordered, size⟩ := lookupSwitchLengthAt_eq_ok_iff.1 given
      rw [switchBase_eq] at there
      exact ⟨.lookup pairs, ⟨head, there⟩, ordered, size⟩
  · rintro ⟨switch, stands, ordered, size⟩
    have same : opcode = switch.opcode := Option.some.inj (head.symm.trans stands.head)
    have there := stands.operands
    rw [← switchBase_eq] at there
    subst same
    cases switch with
    | table low high => exact tableSwitchLengthAt_eq_ok_iff.2 ⟨low, high, there, ordered, size⟩
    | lookup pairs => exact lookupSwitchLengthAt_eq_ok_iff.2 ⟨pairs, there, ordered, size⟩

end Instruction

/-! ## Lengths in words -/

/-- How a computation in words ends without a result. -/
inductive WordStop where
  /-- A result has left its word. -/
  | overflow
  | refused (fault : Fault)

/-- A result in an unsigned word of 64 bits. -/
def unsigned (number : Int) : Except WordStop Nat :=
  if 0 ≤ number ∧ number < 2 ^ 64 then .ok number.toNat else .error .overflow

/-- A result in a signed word of 64 bits. -/
def signed (number : Int) : Except WordStop Int :=
  if -2 ^ 63 ≤ number ∧ number < 2 ^ 63 then .ok number else .error .overflow

theorem unsigned_eq {number : Int} (value : Nat) (same : number = value) (small : value < 2 ^ 64) :
    unsigned number = .ok value := by
  rw [unsigned, if_pos (by omega), same, Int.toNat_natCast]

theorem unsigned_bind {α : Type} {number : Int} {next : Nat → Except WordStop α} (value : Nat)
    (same : number = value) (small : value < 2 ^ 64) : unsigned number >>= next = next value := by
  rw [unsigned_eq value same small, ok_bind]

theorem signed_eq {number : Int} (above : -2 ^ 63 ≤ number) (below : number < 2 ^ 63) :
    signed number = .ok number :=
  if_pos ⟨above, below⟩

namespace Instruction

/-- Where the operands of a switch start. -/
def switchBaseInWords (offset : Nat) : Except WordStop Nat := do
  let next ← unsigned (offset + 1)
  let missing ← unsigned (4 - (next % 4 : Nat))
  unsigned (next + (missing % 4 : Nat))

/-- The signed word at a position, for the switch at an offset. -/
def wordInWords (code : Bytes) (offset position : Nat) : Except WordStop Int := do
  let stop ← unsigned (position + 4)
  if stop ≤ code.length then return Bytes.toInt32 ((code.drop position).take 4)
  let expected ← unsigned (stop - offset)
  let available ← unsigned (code.length - offset)
  .error (.refused (.truncated .switchOperands offset expected available))

/-- The length of a switch at an offset, from the bytes before its table and the entries of that. -/
def extentInWords (offset base head entry : Nat) (count : Int) : Except WordStop Nat := do
  let entries ← unsigned count
  let table ← unsigned (entries * entry)
  let start ← unsigned (base + head)
  let stop ← unsigned (start + table)
  unsigned (stop - offset)

/-- The length of the table switch at an offset. -/
def tableSwitchLengthInWords (code : Bytes) (offset : Nat) : Except WordStop Nat := do
  let base ← switchBaseInWords offset
  let lowest ← unsigned (base + 4)
  let low ← wordInWords code offset lowest
  let highest ← unsigned (base + 8)
  let high ← wordInWords code offset highest
  if high < low then .error (.refused (.malformed .tableSwitch offset))
  else
    let span ← signed (high - low)
    let count ← signed (span + 1)
    extentInWords offset base 12 4 count

/-- The length of the lookup switch at an offset. -/
def lookupSwitchLengthInWords (code : Bytes) (offset : Nat) : Except WordStop Nat := do
  let base ← switchBaseInWords offset
  let counted ← unsigned (base + 4)
  let pairs ← wordInWords code offset counted
  if pairs < 0 then .error (.refused (.malformed .lookupSwitch offset))
  else extentInWords offset base 8 8 pairs

/-- The length of the widened instruction at an offset. -/
def wideLengthInWords (code : Bytes) (offset : Nat) : Except WordStop Nat := do
  let next ← unsigned (offset + 1)
  match code[next]? with
  | none => .error (.refused (.truncated .wideInstruction offset 2 1))
  | some widened => .ok (if widened == incrementOpcode then 6 else 4)

/-- The length of the instruction with an opcode at an offset. -/
def encodedLengthInWords (code : Bytes) (offset : Nat) (opcode : UInt8) : Except WordStop Nat :=
  match opcode.toNat with
  | 0xAA => tableSwitchLengthInWords code offset
  | 0xAB => lookupSwitchLengthInWords code offset
  | 0xC4 => wideLengthInWords code offset
  | _ =>
      match fixedLength? opcode with
      | some length => .ok length
      | none => .error (.refused (.invalidOpcode opcode offset))

/-- The instruction with an opcode at an offset. -/
def decodeInWords (code : Bytes) (offset : Nat) (opcode : UInt8) : Except WordStop Instruction := do
  let length ← encodedLengthInWords code offset opcode
  let available ← unsigned (code.length - offset)
  if available < length then .error (.refused (.truncated .instruction offset length available))
  else return ⟨offset, opcode, length, operationOf opcode (code.drop (offset + 1))⟩

variable {code operands : Bytes} {offset position base head entry : Nat} {opcode : UInt8}
  {number count : Int}

theorem switchBaseInWords_eq (small : offset + 8 < 2 ^ 64) :
    switchBaseInWords offset = .ok (switchBase offset) := by
  rw [switchBaseInWords, unsigned_bind (offset + 1) (by omega) (by omega),
    unsigned_bind (4 - (offset + 1) % 4) (by omega) (by omega)]
  exact unsigned_eq _ (by rw [switchBase]; omega) (by rw [switchBase]; omega)

theorem wordInWords_eq (inside : offset < code.length) (fits : code.length < 2 ^ 63)
    (behind : offset ≤ position) (near : position + 4 < 2 ^ 64) :
    wordInWords code offset position = (wordAt code offset position).mapError .refused := by
  rw [wordInWords, unsigned_bind (position + 4) (by omega) (by omega)]
  unfold wordAt
  split
  · rfl
  · rw [unsigned_bind (position + 4 - offset) (by omega) (by omega),
      unsigned_eq (code.length - offset) (by omega) (by omega)]
    rfl

theorem extentInWords_eq (behind : offset ≤ base) (counts : 0 ≤ count) (few : count.toNat < 2 ^ 64)
    (near : base + head + count.toNat * entry < 2 ^ 64) :
    extentInWords offset base head entry count = .ok (base + head + count.toNat * entry - offset) := by
  rw [extentInWords, unsigned_bind count.toNat (by omega) (by omega),
    unsigned_bind (count.toNat * entry) (by omega) (by omega),
    unsigned_bind (base + head) (by omega) (by omega),
    unsigned_bind (base + head + count.toNat * entry) (by omega) (by omega)]
  exact unsigned_eq _ (by omega) (by omega)

/-- A signed operand is a word of 32 bits. -/
theorem bounds_of_wordAt (read : wordAt code offset position = .ok number) :
    -2 ^ 31 ≤ number ∧ number < 2 ^ 31 := by
  obtain ⟨_, _, _, _, _, _, _, _, above, below, _⟩ := wordAt_eq_ok_iff.1 read
  exact ⟨above, below⟩

theorem tableSwitchLengthInWords_eq (inside : offset < code.length) (fits : code.length < 2 ^ 63) :
    tableSwitchLengthInWords code offset = (tableSwitchLengthAt code offset).mapError .refused := by
  have start := switchBase_eq offset
  have padding : switchPadding offset ≤ 3 := Nat.sub_le _ _
  rw [tableSwitchLengthInWords, switchBaseInWords_eq (by omega), ok_bind,
    unsigned_bind (switchBase offset + 4) (by omega) (by omega),
    wordInWords_eq inside fits (by omega) (by omega)]
  unfold tableSwitchLengthAt
  cases lowest : wordAt code offset (switchBase offset + 4) with
  | error fault => rfl
  | ok low =>
      dsimp only [Except.mapError]
      rw [ok_bind, unsigned_bind (switchBase offset + 8) (by omega) (by omega),
        wordInWords_eq inside fits (by omega) (by omega)]
      cases highest : wordAt code offset (switchBase offset + 8) with
      | error fault => rfl
      | ok high =>
          have lowBounds := bounds_of_wordAt lowest
          have highBounds := bounds_of_wordAt highest
          dsimp only [Except.mapError]
          rw [ok_bind, ok_bind, ok_bind]
          split
          · rfl
          -- There are at most `2 ^ 32` entries of four bytes, so the table ends far below `2 ^ 64`.
          · rw [signed_eq (by omega) (by omega), ok_bind, signed_eq (by omega) (by omega), ok_bind,
              extentInWords_eq (by omega) (by omega) (by omega) (by omega), Nat.mul_comm]
            rfl

theorem lookupSwitchLengthInWords_eq (inside : offset < code.length) (fits : code.length < 2 ^ 63) :
    lookupSwitchLengthInWords code offset = (lookupSwitchLengthAt code offset).mapError .refused := by
  have start := switchBase_eq offset
  have padding : switchPadding offset ≤ 3 := Nat.sub_le _ _
  rw [lookupSwitchLengthInWords, switchBaseInWords_eq (by omega), ok_bind,
    unsigned_bind (switchBase offset + 4) (by omega) (by omega),
    wordInWords_eq inside fits (by omega) (by omega)]
  unfold lookupSwitchLengthAt
  cases counted : wordAt code offset (switchBase offset + 4) with
  | error fault => rfl
  | ok pairs =>
      have bounds := bounds_of_wordAt counted
      dsimp only [Except.mapError]
      rw [ok_bind, ok_bind]
      split
      · rfl
      · rw [extentInWords_eq (by omega) (by omega) (by omega) (by omega), Nat.mul_comm]
        rfl

theorem wideLengthInWords_eq (inside : offset < code.length) (fits : code.length < 2 ^ 63) :
    wideLengthInWords code offset = (wideLengthAt code offset).mapError .refused := by
  rw [wideLengthInWords, unsigned_bind (offset + 1) (by omega) (by omega), wideLengthAt]
  cases code[offset + 1]? <;> rfl

theorem encodedLengthInWords_eq (inside : offset < code.length) (fits : code.length < 2 ^ 63) :
    encodedLengthInWords code offset opcode = (encodedLengthAt code offset opcode).mapError .refused := by
  rw [encodedLengthInWords, tableSwitchLengthInWords_eq inside fits,
    lookupSwitchLengthInWords_eq inside fits, wideLengthInWords_eq inside fits]
  unfold encodedLengthAt
  generalize opcode.toNat = row
  split
  · rfl
  · rfl
  · rfl
  · cases fixedLength? opcode <;> simp [Except.mapError]

/-! ## Decoding -/

/-- An instruction that asks for more bytes than there are is not decoded. -/
theorem decode_eq_truncated {length : Nat} (given : encodedLength offset opcode operands = .ok length)
    (short : 1 + operands.length < length) :
    decode offset opcode operands =
      .error (.truncated .instruction offset length (1 + operands.length)) := by
  have missing : ¬ Bytes.hasAtLeast (length - 1) operands = true := by
    rw [Bytes.hasAtLeast_iff]
    omega
  simp only [decode, given, if_neg missing]

/-- In a code that fits in memory, decoding an instruction with words is decoding it with unbounded numbers:
none of its results leaves its word. -/
theorem decodeInWords_eq (left : code.drop offset = opcode :: operands) (fits : code.length < 2 ^ 63) :
    decodeInWords code offset opcode = (decode offset opcode operands).mapError .refused := by
  have size := length_of_drop left
  have rest : code.drop (offset + 1) = operands := drop_of_drop left 0
  rw [decodeInWords, encodedLengthInWords_eq (by omega) fits, encodedLengthAt_eq left, rest,
    unsigned_eq (1 + operands.length) (by omega) (by omega)]
  cases given : encodedLength offset opcode operands with
  | error fault =>
      simp only [decode, given]
      rfl
  | ok length =>
      dsimp only [Except.mapError]
      rw [ok_bind, ok_bind]
      split
      · next short =>
          rw [decode_eq_truncated given short]
      · next enough =>
          rw [decode_eq_ok_iff.2 ⟨length, given, Nat.not_lt.1 enough, rfl⟩]
          rfl

/-- A switch is no call. -/
theorem operationOf_switch (switches : opcode = 0xAA ∨ opcode = 0xAB) :
    operationOf opcode operands = .other := by
  rcases switches with rfl | rfl <;> rfl

/-- A switch is decoded, with its length over unbounded integers, exactly when its operands lie within the
code and make sense and its table lies within the code too. If the table alone does not, the fault tells the
length. Decoding in words of 64 bits gives the same. -/
theorem decode_switch (left : code.drop offset = opcode :: operands)
    (switches : opcode = 0xAA ∨ opcode = 0xAB) {padding : Nat} (few : padding < 4)
    (aligned : (offset + 1 + padding) % 4 = 0) :
    (∀ instruction, decode offset opcode operands = .ok instruction ↔
      ∃ (switch : Switch) (length : Nat), switch.StandsAt code offset padding ∧ switch.IsOrdered ∧
        switch.length padding = length ∧ length ≤ code.length - offset ∧
        instruction = ⟨offset, opcode, length, .other⟩) ∧
    (∀ (switch : Switch) (length : Nat), switch.StandsAt code offset padding → switch.IsOrdered →
      switch.length padding = length → code.length - offset < length →
      decode offset opcode operands =
        .error (.truncated .instruction offset length (code.length - offset))) ∧
    (code.length < 2 ^ 63 →
      decodeInWords code offset opcode = (decode offset opcode operands).mapError .refused) := by
  obtain rfl : padding = switchPadding offset := by
    rw [switchPadding]
    omega
  have available : code.length - offset = 1 + operands.length := by
    rw [length_of_drop left, Nat.add_sub_cancel_left]
  rw [available]
  refine ⟨?decoded, ?truncated, decodeInWords_eq left⟩
  case decoded =>
    intro instruction
    rw [decode_eq_ok_iff, operationOf_switch switches]
    constructor
    · rintro ⟨length, given, enough, same⟩
      obtain ⟨switch, stands, ordered, size⟩ := (encodedLength_switch_eq_ok_iff left switches).1 given
      exact ⟨switch, length, stands, ordered, size, enough, same⟩
    · rintro ⟨switch, length, stands, ordered, size, enough, same⟩
      have given := (encodedLength_switch_eq_ok_iff left switches).2 ⟨switch, stands, ordered, size⟩
      exact ⟨length, given, enough, same⟩
  case truncated =>
    intro switch length stands ordered size short
    have given := (encodedLength_switch_eq_ok_iff left switches).2 ⟨switch, stands, ordered, size⟩
    exact decode_eq_truncated given short

/-- A table switch over all signed words of 32 bits, without its jumps. -/
def widestTable : Bytes :=
  [0xAA, 0x00, 0x00, 0x00, 0x00, 0x00, 0x00, 0x00, 0x80, 0x00, 0x00, 0x00, 0x7F, 0xFF, 0xFF, 0xFF]

theorem decode_switch_widestTable :
    decode 0 0xAA widestTable.tail = .error (.truncated .instruction 0 17179869200 16) ∧
      decodeInWords widestTable 0 0xAA =
        .error (.refused (.truncated .instruction 0 17179869200 16)) := by
  have lowest : HoldsInt widestTable 8 (-2 ^ 31) :=
    ⟨0x80, 0x00, 0x00, 0x00, rfl, rfl, rfl, rfl, by decide, by decide, by decide⟩
  have highest : HoldsInt widestTable 12 (2 ^ 31 - 1) :=
    ⟨0x7F, 0xFF, 0xFF, 0xFF, rfl, rfl, rfl, rfl, by decide, by decide, by decide⟩
  have ordered : (Switch.table (-2 ^ 31) (2 ^ 31 - 1)).IsOrdered := by
    rw [Switch.IsOrdered]
    decide
  have left : widestTable.drop 0 = 0xAA :: widestTable.tail := rfl
  obtain ⟨_, truncated, words⟩ := decode_switch left (.inl rfl) (show 3 < 4 by decide) rfl
  have stopped : decode 0 0xAA widestTable.tail = .error (.truncated .instruction 0 17179869200 16) :=
    truncated (.table (-2 ^ 31) (2 ^ 31 - 1)) _ ⟨rfl, lowest, highest⟩ ordered rfl (by decide)
  constructor
  · exact stopped
  · rw [words (by decide), stopped]
    rfl

end Instruction

end ApiCoverage.ClassFile
