import ApiCoverage.Proofs.ClassFile.DraftNames
import ApiCoverage.Proofs.ClassFile.Instruction
import ApiCoverage.Proofs.ClassFile.LineTable
import ApiCoverage.Proofs.ClassFile.RoundTrip

/-!
# Calls read back as they were drafted

Code that is drafted from calls, line markers and returns is decoded without a fault, and its calls are
the drafted ones in order: each of the same kind, through a slot that means the method called, and in
the line that was in force where it was drafted. The decoding of the code and the lookup of lines are
two separate matters, which meet at the offsets of the calls.
-/

namespace ApiCoverage.ClassFile

/-- A call in a draft, with the line that it stems from. -/
structure DraftedCall where
  kind : InvokeKind
  ref : MemberRef
  line : Option UInt16
  deriving DecidableEq, Repr

namespace CodeStep

/-- A step that is a call, a line marker or a return. -/
def IsPlain : CodeStep → Prop
  | line _ => True
  | invoke _ _ => True
  | raw bytes => raw bytes = returnVoid

instance : DecidablePred IsPlain := fun step =>
  match step with
  | line _ | invoke _ _ => isTrue trivial
  | raw bytes => inferInstanceAs (Decidable (raw bytes = returnVoid))

/-- The line that a step marks. -/
def line? : CodeStep → Option UInt16
  | line number => some number
  | _ => none

/-- The calls of steps in order. Each stems from the line that the nearest line marker before it marks;
`first` is the line of those before every marker. -/
def calls (first : Option UInt16) : List CodeStep → List DraftedCall
  | [] => []
  | line number :: rest => calls (some number) rest
  | invoke kind ref :: rest => ⟨kind, ref, first⟩ :: calls first rest
  | raw _ :: rest => calls first rest

end CodeStep

namespace CodeDraft

/-- The calls of a draft. Those before every line marker stem from the line of the first one, and
without a line table no line is known. -/
def calls (draft : CodeDraft) : List DraftedCall :=
  let calls := CodeStep.calls (draft.steps.findSome? CodeStep.line?) draft.steps
  if draft.lineTable then calls else calls.map fun call => { call with line := none }

end CodeDraft

/-- A method whose code, if it has any, is made of calls, line markers and returns. -/
def MethodDraft.IsPlain (draft : MethodDraft) : Prop :=
  ∀ code ∈ draft.code, ∀ step ∈ code.steps, step.IsPlain

instance : DecidablePred MethodDraft.IsPlain := fun draft =>
  inferInstanceAs (Decidable (∀ code ∈ draft.code, ∀ step ∈ code.steps, step.IsPlain))

/-- An instruction of a body makes a drafted call: of its kind, through a slot that means the method
called, to the letter if the owner's name has no slash, and in its line. -/
structure DraftedCall.MadeBy (symbolAt : UInt16 → Option Symbol) (body : CodeBody)
    (call : DraftedCall) (instruction : Instruction) : Prop where
  invokes : ∃ slot, instruction.operation = .invoke call.kind slot ∧
    symbolAt slot = some (call.kind.symbol call.ref.dotted) ∧
    ('/' ∉ call.ref.owner.toList → symbolAt slot = some (call.kind.symbol call.ref))
  line : body.lineFor instruction.offset = call.line.map UInt16.toNat

/-- A body makes some calls: it is decoded to its end, and its calls are these, in order and no
others. -/
structure CodeBody.Makes (symbolAt : UInt16 → Option Symbol) (calls : List DraftedCall)
    (body : CodeBody) : Prop where
  decoded : body.instructions.fault = none
  calls : List.Forall₂ (DraftedCall.MadeBy symbolAt body) calls
    (body.instructions.instructions.filter fun instruction => instruction.invokedSlot?.isSome)

theorem MemberRef.dotted_eq_self {ref : MemberRef} (unslashed : '/' ∉ ref.owner.toList) :
    ref.dotted = ref := by
  rw [dotted, Pool.dottedName_eq_self unslashed]

/-! ## The offsets of calls -/

/-- A drafted call at the code offset at which it stands. -/
structure PlacedCall where
  offset : Nat
  kind : InvokeKind
  ref : MemberRef

/-- An instruction makes the call that is placed at its offset. -/
structure PlacedCall.MadeBy (symbolAt : UInt16 → Option Symbol) (call : PlacedCall)
    (instruction : Instruction) : Prop where
  offset : instruction.offset = call.offset
  invokes : ∃ slot, instruction.operation = .invoke call.kind slot ∧
    symbolAt slot = some (call.kind.symbol call.ref.dotted)

namespace Instruction

/-- A call is decoded from the bytes that it is written as, whatever follows them. -/
theorem decode_invoke (offset : Nat) (kind : InvokeKind) (slot : UInt16) (rest : Bytes) :
    decode offset kind.opcode (Bytes.ofUInt16 slot ++ kind.trailer ++ rest) =
      .ok ⟨offset, kind.opcode, 3 + kind.trailer.length, .invoke kind slot⟩ := by
  have length_eq : (if kind = .interface then 5 else 3) = 3 + kind.trailer.length := by
    cases kind <;> rfl
  have operation_eq : operationOf kind.opcode (Bytes.ofUInt16 slot ++ kind.trailer ++ rest) =
      .invoke kind slot := by
    rw [operationOf, InvokeKind.ofOpcode?_eq_some_iff.2 rfl, List.append_assoc,
      List.take_left' (Bytes.length_ofUInt16 slot), Bytes.toUInt16_ofUInt16]
  refine decode_eq_ok_iff.2 ⟨3 + kind.trailer.length, ?_, ?_, ?_⟩
  · rw [encodedLength_opcode, length_eq]
  · simp only [List.length_append, Bytes.length_ofUInt16]
    omega
  · rw [operation_eq]

/-- A return is decoded from its opcode, whatever follows it. -/
theorem decode_returnVoid (offset : Nat) (rest : Bytes) :
    decode offset 0xB1 rest = .ok ⟨offset, 0xB1, 1, .other⟩ :=
  decode_eq_ok_iff.2 ⟨1, rfl, Nat.le_add_right 1 _, rfl⟩

end Instruction

namespace CodeStep

variable {symbolAt : UInt16 → Option Symbol}

/-- The calls of steps with their code offsets, where `offset` is that of the first step. -/
def placedCalls (offset : Nat) : List CodeStep → List PlacedCall
  | [] => []
  | invoke kind ref :: rest =>
      ⟨offset, kind, ref⟩ :: placedCalls (offset + (invoke kind ref).size) rest
  | step :: rest => placedCalls (offset + step.size) rest

/-- The bytes of plain steps are decoded to their end, and the calls among the instructions are those
of the steps, in order and at their offsets. -/
theorem exists_decodes_of_denotes {steps : List CodeStep} {pieces : List Bytes}
    (denotes : List.Forall₂ (Denotes symbolAt) steps pieces) (plain : ∀ step ∈ steps, step.IsPlain)
    (offset : Nat) :
    ∃ instructions, Decodes offset pieces.flatten ⟨instructions, none⟩ ∧
      List.Forall₂ (PlacedCall.MadeBy symbolAt) (placedCalls offset steps)
        (instructions.filter fun instruction => instruction.invokedSlot?.isSome) := by
  induction denotes generalizing offset with
  | nil => exact ⟨[], .exhausted offset, .nil⟩
  | @cons step bytes steps pieces head _ ih =>
      rcases List.forall_mem_cons.1 plain with ⟨plainStep, plainRest⟩
      rcases ih plainRest (offset + step.size) with ⟨instructions, decodes, made⟩
      rw [List.flatten_cons]
      cases step with
      | line number =>
          rw [head]
          exact ⟨instructions, decodes, made⟩
      | raw given =>
          obtain rfl : bytes = [0xB1] := head.trans (CodeStep.raw.inj plainStep)
          obtain rfl : given = [0xB1] := CodeStep.raw.inj plainStep
          exact ⟨_, .step (Instruction.decode_returnVoid offset _) decodes, made⟩
      | invoke kind ref =>
          rcases head with ⟨slot, means, rfl⟩
          have decoded := Instruction.decode_invoke offset kind slot pieces.flatten
          have left : (Bytes.ofUInt16 slot ++ kind.trailer ++ pieces.flatten).drop
              (3 + kind.trailer.length - 1) = pieces.flatten := by
            apply List.drop_left'
            simp only [List.length_append, Bytes.length_ofUInt16]
            omega
          have later : Decodes (offset + (3 + kind.trailer.length))
              ((Bytes.ofUInt16 slot ++ kind.trailer ++ pieces.flatten).drop
                (3 + kind.trailer.length - 1)) ⟨instructions, none⟩ := by
            rw [left]
            exact decodes
          exact ⟨_, .step decoded later, .cons ⟨rfl, slot, rfl, means⟩ made⟩

/-! ## The lines of calls -/

theorem map_line_markers (offset : Nat) (steps : List CodeStep) :
    (markers offset steps).map LineEntry.line = steps.filterMap line? := by
  induction steps generalizing offset with
  | nil => rfl
  | cons step rest ih => cases step <;> simp [markers, List.filterMap_cons, line?, ih]

/-- Markers stand at or behind the offset at which the steps begin. -/
theorem le_start_of_mem_markers {steps : List CodeStep} {offset : Nat}
    (small : offset + sumBy size steps ≤ 65535) :
    ∀ entry ∈ markers offset steps, offset ≤ entry.start.toNat := by
  induction steps generalizing offset with
  | nil =>
      intro entry member
      cases member
  | cons step rest ih =>
      rw [sumBy_cons, ← Nat.add_assoc] at small
      have later : ∀ entry ∈ markers (offset + step.size) rest, offset ≤ entry.start.toNat :=
        fun entry member => Nat.le_trans (Nat.le_add_right _ _) (ih small entry member)
      cases step with
      | line number =>
          rw [markers, List.forall_mem_cons]
          exact ⟨Nat.le_of_eq (toNat_ofNat_of_le (by omega)).symm, later⟩
      | invoke kind ref => exact later
      | raw bytes => exact later

/-- The markers of steps are in order. -/
theorem pairwise_markers {steps : List CodeStep} {offset : Nat}
    (small : offset + sumBy size steps ≤ 65535) :
    (markers offset steps).Pairwise fun first second => first.start ≤ second.start := by
  induction steps generalizing offset with
  | nil => exact .nil
  | cons step rest ih =>
      have smallRest : offset + step.size + sumBy size rest ≤ 65535 := by
        rwa [sumBy_cons, ← Nat.add_assoc] at small
      cases step with
      | line number =>
          refine .cons ?_ (ih smallRest)
          intro entry member
          rw [UInt16.le_iff_toNat_le, toNat_ofNat_of_le (by omega)]
          exact le_start_of_mem_markers smallRest entry member
      | invoke kind ref => exact ih smallRest
      | raw bytes => exact ih smallRest

/-- The line in force at a call is the one that its offset is looked up with, where `front` holds the
markers that stand before the steps. -/
theorem calls_eq_map_placedCalls {steps : List CodeStep} {front : List LineEntry} {offset : Nat}
    (passed : ∀ entry ∈ front, entry.start.toNat ≤ offset)
    (small : offset + sumBy size steps ≤ 65535) :
    calls ((front.getLast?.or (markers offset steps).head?).map LineEntry.line) steps =
      (placedCalls offset steps).map fun call => ⟨call.kind, call.ref,
        (CodeBody.entryFor call.offset (front ++ markers offset steps).toArray).map
          LineEntry.line⟩ := by
  induction steps generalizing front offset with
  | nil => rfl
  | cons step rest ih =>
      have smallRest : offset + step.size + sumBy size rest ≤ 65535 := by
        rwa [sumBy_cons, ← Nat.add_assoc] at small
      have passedRest : ∀ entry ∈ front, entry.start.toNat ≤ offset + step.size :=
        fun entry member => Nat.le_trans (passed entry member) (Nat.le_add_right _ _)
      cases step with
      | line number =>
          have start_eq : (UInt16.ofNat offset).toNat = offset := toNat_ofNat_of_le (by omega)
          have passedMarker : ∀ entry ∈ front ++ [⟨UInt16.ofNat offset, number⟩],
              entry.start.toNat ≤ offset := by
            intro entry member
            rcases List.mem_append.1 member with before | here
            · exact passed entry before
            · rw [List.mem_singleton.1 here]
              exact Nat.le_of_eq start_eq
          have found := ih passedMarker smallRest
          rw [List.getLast?_append, List.append_assoc] at found
          exact found
      | invoke kind ref =>
          have behind : ∀ entry ∈ markers (offset + (invoke kind ref).size) rest,
              offset < entry.start.toNat := by
            intro entry member
            have le := le_start_of_mem_markers smallRest entry member
            have positive : 3 ≤ (invoke kind ref).size := Nat.le_add_right 3 _
            omega
          have found := ih passedRest smallRest
          simp only [calls, placedCalls, List.map_cons, markers]
          rw [CodeBody.entryFor_append passed behind]
          exact congrArg _ found
      | raw bytes => exact ih passedRest smallRest

end CodeStep

namespace CodeDraft

variable {symbolAt : UInt16 → Option Symbol} {draft : CodeDraft} {body : CodeBody}

/-- The line table of a body does not depend on the slots of its calls. -/
theorem StandsFor.lines_eq (stands : draft.StandsFor symbolAt body) (fits : draft.Fits) :
    body.lines =
      if draft.lineTable then some (CodeStep.markers 0 draft.steps).toArray else none := by
  rcases stands with ⟨pieces, _, rfl⟩
  have small : 0 + sumBy CodeStep.size draft.steps ≤ 65535 := by
    rw [Nat.zero_add]
    exact fits.code
  cases draft.lineTable with
  | false => rfl
  | true =>
      change (CodeBody.ofTable _ (some _)).lines = _
      rw [CodeBody.ofTable_of_pairwise _ (CodeStep.pairwise_markers small)]
      rfl

/-- The line of a drafted call is the one that its offset is looked up with. -/
theorem calls_eq_map_placedCalls (fits : draft.Fits) :
    draft.calls = (CodeStep.placedCalls 0 draft.steps).map fun call => ⟨call.kind, call.ref,
      if draft.lineTable then
        (CodeBody.entryFor call.offset (CodeStep.markers 0 draft.steps).toArray).map LineEntry.line
      else none⟩ := by
  have small : 0 + sumBy CodeStep.size draft.steps ≤ 65535 := by
    rw [Nat.zero_add]
    exact fits.code
  have first : (CodeStep.markers 0 draft.steps).head?.map LineEntry.line =
      draft.steps.findSome? CodeStep.line? := by
    rw [← List.head?_map, CodeStep.map_line_markers, List.head?_filterMap]
  have placed := @CodeStep.calls_eq_map_placedCalls draft.steps [] 0 (by simp) small
  rw [List.getLast?_nil, Option.none_or, first, List.nil_append] at placed
  rw [calls, placed]
  cases draft.lineTable with
  | false => simp
  | true => rfl

/-- A body that plain code stands for makes the drafted calls. -/
theorem StandsFor.makes (stands : draft.StandsFor symbolAt body) (fits : draft.Fits)
    (plain : ∀ step ∈ draft.steps, step.IsPlain) : body.Makes symbolAt draft.calls := by
  have lines := stands.lines_eq fits
  rcases stands with ⟨pieces, denotes, rfl⟩
  rcases CodeStep.exists_decodes_of_denotes denotes plain 0 with ⟨instructions, decodes, made⟩
  have stream_eq : InstructionStream.ofBytes pieces.flatten = ⟨instructions, none⟩ :=
    (InstructionStream.decodes_ofBytes _).unique decodes
  constructor
  · rw [CodeBody.instructions]
    exact congrArg InstructionStream.fault stream_eq
  · rw [CodeBody.instructions]
    change List.Forall₂ _ _ ((InstructionStream.ofBytes pieces.flatten).instructions.filter _)
    rw [stream_eq, calls_eq_map_placedCalls fits, List.forall₂_map_left_iff]
    apply made.imp
    rintro call instruction ⟨offset_eq, slot, invokes, means⟩
    constructor
    · refine ⟨slot, invokes, means, ?_⟩
      intro unslashed
      rwa [MemberRef.dotted_eq_self unslashed] at means
    · rw [CodeBody.lineFor, lines, offset_eq]
      cases draft.lineTable with
      | false => rfl
      | true =>
          cases found : CodeBody.entryFor call.offset
            (CodeStep.markers 0 draft.steps).toArray <;> simp [found]

end CodeDraft

/-! ## The calls of a class file -/

namespace ClassDraft

theorem methods_ofSteps (kind : TypeKind) (name : String) (steps : List ClassStep) :
    (ofSteps kind name steps).methods = steps.filterMap ClassStep.method? := by
  have collected := (applyAll_collects (ofKind kind name) steps).methods
  cases kind <;> exact collected

/-- The methods of a unit that a dotted draft stands for are those of the draft, which fit. -/
theorem StandsFor.forall₂_methods {draft : ClassDraft} {unit : ClassUnit}
    (stands : draft.dotted.StandsFor unit) (fits : draft.dotted.Fits) :
    List.Forall₂ (fun method decl => method.dotted.Fits ∧
      method.dotted.StandsFor unit.symbol? decl) draft.methods unit.methods := by
  rw [List.forall₂_and_left]
  constructor
  · intro method member
    exact fits.methods method.dotted (List.mem_map_of_mem member)
  · exact List.forall₂_map_left_iff.1 stands.methods

end ClassDraft

/-- The class file of plain steps that stay within the format opens, and the bodies of its methods make
the drafted calls: a method has a body if its draft has code, the body is decoded to its end, and its
calls are those of the code. -/
theorem makes_of_ofBytes_assemble (kind : TypeKind) (name : String) (steps : List ClassStep)
    (fits : (ClassDraft.ofSteps kind name steps).dotted.Fits)
    (plain : ∀ draft ∈ steps.filterMap ClassStep.method?, draft.IsPlain) :
    ∃ unit, ClassUnit.ofBytes (ClassDraft.ofSteps kind name steps).assemble = .ok unit ∧
      List.Forall₂ (fun draft method => Option.Rel
        (fun code body => body.Makes unit.symbol? code.calls) draft.code method.body)
        (steps.filterMap ClassStep.method?) unit.methods := by
  rcases ClassDraft.exists_ofBytes_assemble_ofSteps fits with ⟨unit, opened, stands⟩
  have methods := stands.forall₂_methods fits
  rw [ClassDraft.methods_ofSteps] at methods
  refine ⟨unit, opened, ?_⟩
  apply ((List.forall₂_and_left _ _).2 ⟨plain, methods⟩).imp
  rintro draft method ⟨plain, fits, stands⟩
  have body : Option.Rel _ draft.code method.body := stands.body
  generalize coded : draft.code = drafted, method.body = read at body ⊢
  cases body with
  | none => exact .none
  | some stands => exact .some (stands.makes (fits.code _ coded) (plain _ coded))

/-- Methods whose code has a call before every marker, two markers at one offset and a marker behind
the last call; code with markers but no line table; and no code at all. -/
def callSteps : List ClassStep :=
  [.reserveLong 5,
    .method {
      name := "run", descriptor := "()V"
      code := some ⟨[.invoke .virtual ⟨"c.D", "m", "()V"⟩, .line 7, .line 9,
        .invoke .interface ⟨"g.H", "m", "()V"⟩, .invoke .static ⟨"c.D", "m", "()V"⟩, .line 3,
        .invoke .special ⟨"g/H", "n", "()I"⟩, CodeStep.returnVoid, .line 8], true⟩ },
    .method {
      name := "bare", descriptor := "()V"
      code := some ⟨[.line 4, .invoke .static ⟨"c.D", "m", "()V"⟩], false⟩ },
    .method { name := "idle", descriptor := "()V" }]

theorem makes_of_ofBytes_assemble_callSteps :
    (ClassDraft.ofSteps .classType "a.B" callSteps).dotted.Fits ∧
      (∀ draft ∈ callSteps.filterMap ClassStep.method?, draft.IsPlain) ∧
      ∃ unit, ClassUnit.ofBytes (ClassDraft.ofSteps .classType "a.B" callSteps).assemble = .ok unit ∧
        List.Forall₂ (fun draft method => Option.Rel
          (fun code body => body.Makes unit.symbol? code.calls) draft.code method.body)
          (callSteps.filterMap ClassStep.method?) unit.methods :=
  ⟨by decide +kernel, by decide +kernel,
    makes_of_ofBytes_assemble .classType "a.B" callSteps (by decide +kernel) (by decide +kernel)⟩

/-- The call before every marker stems from the first line marked, and of two markers at one offset the
later one counts. -/
example : CodeDraft.calls ⟨[.invoke .virtual ⟨"c.D", "m", "()V"⟩, .line 7, .line 9,
    .invoke .static ⟨"c.D", "n", "()V"⟩, .line 8], true⟩ =
      [⟨.virtual, ⟨"c.D", "m", "()V"⟩, some 7⟩, ⟨.static, ⟨"c.D", "n", "()V"⟩, some 9⟩] := by
  decide

end ApiCoverage.ClassFile
