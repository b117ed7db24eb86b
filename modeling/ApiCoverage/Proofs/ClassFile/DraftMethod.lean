import ApiCoverage.Proofs.ClassFile.DraftSections

/-!
# Methods read back as they were drafted

A method is read back with its body, its deprecation and its annotations. The code of the body has
the bytes of the drafted steps, and its line table has the line markers at the offsets of the code
that follows them.
-/

namespace ApiCoverage.ClassFile

open Reader (reads_word reads_byte reads_doubleWord reads_take reads_take_of_length reads_times
  reads_ofExcept)

variable {final : PoolDraft} {given : Prop}

/-! ## Code -/

namespace CodeStep

variable {symbolAt : UInt16 → Option Symbol}

theorem Denotes.length_eq {step : CodeStep} {bytes : Bytes}
    (denotes : step.Denotes symbolAt bytes) : bytes.length = step.size := by
  cases step with
  | line number => rw [denotes, size, List.length_nil]
  | invoke kind ref =>
      rcases denotes with ⟨slot, _, rfl⟩
      cases kind <;> rfl
  | raw given => rw [denotes, size]

/-- A step is written as bytes that say what it says. -/
theorem ensures_encode (fits : final.Fits) (step : CodeStep) :
    Drafting.Ensures final given step.encode (step.Denotes final.toPool.symbolAt) := by
  cases step with
  | line number => exact Drafting.ensures_pure fun _ => rfl
  | raw bytes => exact Drafting.ensures_pure fun _ => rfl
  | invoke kind ref =>
      cases kind with
      | interface =>
          apply (Drafting.ensures_interfaceMethod fits ref).bind
          intro slot
          exact Drafting.ensures_pure fun known => ⟨slot, known.2, rfl⟩
      | virtual | special | static =>
          apply (Drafting.ensures_method fits ref).bind
          intro slot
          exact Drafting.ensures_pure fun known => ⟨slot, known.2, (List.append_nil _).symm⟩

/-- The line table of written steps has the markers of the steps. -/
theorem lineTable_eq_markers {steps : List CodeStep} {pieces : List Bytes}
    (denotes : List.Forall₂ (Denotes symbolAt) steps pieces) (offset : Nat) :
    lineTable offset (steps.zip pieces) = markers offset steps := by
  induction denotes generalizing offset with
  | nil => rfl
  | @cons step bytes steps pieces head _ ih =>
      rw [List.zip_cons_cons]
      cases step with
      | line number => rw [lineTable, markers, ih]
      | invoke kind ref => simp only [lineTable, markers, ih, head.length_eq]
      | raw given => simp only [lineTable, markers, ih, head.length_eq]

end CodeStep

namespace LineEntry

theorem reads_encode (entry : LineEntry) : LineEntry.read.Reads entry.encode entry :=
  (reads_word _ entry.start).bind ((reads_word _ entry.line).bind_pure (LineEntry.mk entry.start))

theorem length_flatMap_encode (table : List LineEntry) :
    (table.flatMap LineEntry.encode).length = 4 * table.length := by
  induction table with
  | nil => rfl
  | cons entry rest ih =>
      rw [List.flatMap_cons, List.length_append, ih, List.length_cons, Nat.mul_succ, Nat.add_comm]
      rfl

/-- A counted line table is read back in order. -/
theorem reads_table {table : List LineEntry} (count : table.length ≤ 65535) :
    LineEntry.readTable.Reads (Drafting.count table.length ++ table.flatMap LineEntry.encode)
      table := by
  have rows : List.Forall₂ (fun entry piece => LineEntry.read.Reads piece entry) table
      (table.map LineEntry.encode) := by
    rw [List.forall₂_map_right_iff, List.forall₂_same]
    exact fun entry _ => reads_encode entry
  rw [List.flatMap_def]
  exact (reads_word _ _).bind (reads_times rows (toNat_ofNat_of_le count))

end LineEntry

namespace CodeDraft

/-- The attributes of a body with a line table, where it is written. -/
def attributesOf (written : Bool) (table : List LineEntry) : List (String × Bytes) :=
  if written then
    [("LineNumberTable", Drafting.count table.length ++ table.flatMap LineEntry.encode)]
  else []

theorem length_attributesOf_le (written : Bool) (table : List LineEntry) :
    (attributesOf written table).length ≤ 1 := by
  cases written with
  | false => exact Nat.zero_le 1
  | true => exact Nat.le_refl 1

/-- The size of the attributes of a body, which grows with the rows of the line table. -/
theorem listSize_attributesOf_le (written : Bool) (table : List LineEntry) :
    Attribute.listSize (attributesOf written table) ≤ 10 + 4 * table.length := by
  cases written with
  | false => exact Nat.le_trans (by decide : 2 ≤ 10) (Nat.le_add_right 10 _)
  | true =>
      simp only [attributesOf, Attribute.listSize, if_true, sumBy_cons, sumBy_nil,
        List.length_append, LineEntry.length_flatMap_encode, Drafting.count,
        Bytes.length_ofUInt16]
      omega

/-- The attributes of a body give its line table, in reverse. -/
theorem chain_attributesOf (written : Bool) {table : List LineEntry}
    (count : table.length ≤ 65535) :
    Attribute.Chain CodeBody.withAttribute (attributesOf written table) none
      (if written then some table.reverse else none) := by
  cases written with
  | false => exact .nil none
  | true =>
      apply Attribute.Chain.single
      · rw [List.length_append, LineEntry.length_flatMap_encode, Drafting.count,
          Bytes.length_ofUInt16, UInt32.size]
        omega
      · intro offset
        simp [CodeBody.withAttribute, Attribute.parse_eq_ok (LineEntry.reads_table count),
          Except.map]

end CodeDraft

namespace CodeBody

/-- A body without exception handlers is read from its code and its attributes. -/
theorem reads_parts {pool : Pool} {code attributes : Bytes} {table : Option (List LineEntry)}
    (small : code.length ≤ 65535)
    (attributes_read : (Reader.word .codeAttributes >>= fun count =>
      Attribute.fold pool withAttribute count.toNat none).Reads attributes table) :
    (read pool).Reads
      (Bytes.ofUInt16 8 ++ Bytes.ofUInt16 8 ++ (Bytes.ofUInt32 (UInt32.ofNat code.length) ++
        (code ++ (Bytes.ofUInt16 0 ++ attributes))))
      (ofTable code (table.map List.reverse)) := by
  have length_eq : code.length = (UInt32.ofNat code.length).toNat := by
    rw [UInt32.toNat_ofNat', Nat.mod_eq_of_lt]
    omega
  have limits : (Reader.take .code 4).Reads (Bytes.ofUInt16 8 ++ Bytes.ofUInt16 8) _ :=
    reads_take_of_length rfl
  have handlers : (Reader.take .exceptionTable ((0 : UInt16).toNat * 8)).Reads [] [] :=
    reads_take_of_length rfl
  have table_read := attributes_read.bind_pure fun table => ofTable code (table.map List.reverse)
  rw [bind_assoc] at table_read
  apply limits.bind
  apply (reads_doubleWord _ _).bind
  apply (reads_take_of_length length_eq).bind
  apply (reads_word _ _).bind
  apply handlers.bind_of_nil
  exact table_read

end CodeBody

namespace CodeDraft

/-- A body is read back from the bytes that it is written as. -/
theorem ensures_encode (fits : final.Fits) {draft : CodeDraft} (draftFits : draft.Fits) :
    Drafting.Ensures final given draft.encode
      fun bytes => bytes.length < UInt32.size ∧
        ∃ body, draft.StandsFor final.toPool.symbolAt body ∧
          (CodeBody.read final.toPool).Reads bytes body := by
  have steps := Drafting.ensures_mapM given fun step (_ : step ∈ draft.steps) =>
    CodeStep.ensures_encode fits step
  apply steps.bind
  intro pieces
  let table := CodeStep.lineTable 0 (draft.steps.zip pieces)
  apply (Attribute.ensures_attributes fits (attributesOf draft.lineTable table)).bind
  intro attributes
  apply Drafting.ensures_pure
  rintro ⟨⟨_, denotes⟩, held⟩
  have code : pieces.flatten.length ≤ 65535 := by
    rw [length_flatten_eq_sumBy (denotes.imp fun _ _ => CodeStep.Denotes.length_eq)]
    exact draftFits.code
  have table_eq : table = CodeStep.markers 0 draft.steps :=
    CodeStep.lineTable_eq_markers denotes 0
  constructor
  · have attributes_le := listSize_attributesOf_le draft.lineTable table
    have rows := draftFits.markers
    rw [← table_eq] at rows
    simp only [List.length_append, Bytes.length_ofUInt16, Bytes.length_ofUInt32, held.size,
      UInt32.size]
    omega
  · have few := Nat.le_trans (length_attributesOf_le draft.lineTable table)
      (by decide : 1 ≤ 65535)
    have chain := chain_attributesOf draft.lineTable draftFits.markers
    rw [← table_eq] at chain
    have reads := CodeBody.reads_parts code (held.reads .codeAttributes few chain)
    have lines : (if draft.lineTable then some table.reverse else none).map List.reverse =
        if draft.lineTable then some (CodeStep.markers 0 draft.steps) else none := by
      rw [table_eq]
      cases draft.lineTable <;> simp
    rw [lines] at reads
    exact ⟨_, ⟨pieces, denotes, rfl⟩, by simpa only [List.append_assoc] using reads⟩

end CodeDraft

/-! ## The attributes of a method -/

namespace Drafting

/-- Annotations are written where there are any, and reading them fills them in where there were
none. How they act on the state of the reading is left to the caller: classes and methods differ. -/
theorem ensures_annotationAttribute (fits : final.Fits) {uses : List AnnotationUse}
    (listFits : AnnotationUse.ListFits uses) (small : AnnotationUse.listSize uses < UInt32.size) :
    Ensures final given (annotationAttribute uses) fun entries => entries.length ≤ 1 ∧
      ∀ (σ : Type) (act : σ → Attribute → Except Fault σ) (state : List AnnotationUse → σ),
        (∀ body offset, (AnnotationUse.readList final.toPool).Reads body uses →
          act (state []) ⟨"RuntimeVisibleAnnotations", ⟨offset, body⟩⟩ = .ok (state uses)) →
        Attribute.Chain act entries (state []) (state uses) := by
  cases uses with
  | nil => exact ensures_pure fun _ => ⟨Nat.zero_le 1, fun _ _ state _ => .nil (state [])⟩
  | cons use rest =>
      apply (AnnotationUse.ensures_annotations fits listFits).bind
      intro body
      apply ensures_pure
      rintro ⟨_, size, reads⟩
      refine ⟨Nat.le_refl 1, fun _ _ _ acts => ?_⟩
      exact .single (size ▸ small) fun offset => acts body offset reads

end Drafting

namespace MethodDraft

/-- The method that the header of a draft announces, with the given further parts. -/
def headed (draft : MethodDraft) (deprecated : Bool) (annotations : List AnnotationUse)
    (parameterAnnotations : List (List AnnotationUse)) (body : Option CodeBody) : MethodDecl :=
  ⟨draft.name, draft.descriptor, draft.access, deprecated, annotations, parameterAnnotations, body⟩

/-- The code attribute fills in a body that the drafted code stands for. -/
theorem ensures_codeAttribute (fits : final.Fits) {draft : MethodDraft} (draftFits : draft.Fits) :
    Drafting.Ensures final given (codeAttribute draft.code) fun entries => entries.length ≤ 1 ∧
      ∃ body, Option.Rel (CodeDraft.StandsFor final.toPool.symbolAt) draft.code body ∧
        Attribute.Chain (MethodDecl.withAttribute final.toPool) entries
          (draft.headed false [] [] none) (draft.headed false [] [] body) := by
  cases coded : draft.code with
  | none => exact Drafting.ensures_pure fun _ => ⟨Nat.zero_le 1, none, .none, .nil _⟩
  | some code =>
      apply (CodeDraft.ensures_encode fits (draftFits.code code coded)).bind
      intro bytes
      apply Drafting.ensures_pure
      rintro ⟨_, small, body, stands, reads⟩
      refine ⟨Nat.le_refl 1, some body, .some stands, .single small ?_⟩
      intro offset
      simp only [MethodDecl.withAttribute, Attribute.parse_eq_ok reads]
      rfl

/-- The attribute without a body marks the method as deprecated. -/
theorem chain_deprecated (draft : MethodDraft) (pool : Pool) (body : Option CodeBody) :
    Attribute.Chain (MethodDecl.withAttribute pool)
      (if draft.deprecated then [("Deprecated", [])] else [])
      (draft.headed false [] [] body) (draft.headed draft.deprecated [] [] body) := by
  cases draft.deprecated with
  | false => exact .nil _
  | true => exact .single (by decide) fun _ => rfl

/-- The annotations of the parameters are read back, with empty lists in their places. -/
theorem ensures_parameterAttribute (fits : final.Fits) {draft : MethodDraft}
    (draftFits : draft.Fits) :
    Drafting.Ensures final given (parameterAttribute draft.parameterAnnotations) fun entries =>
      entries.length ≤ 1 ∧ ∀ deprecated annotations body,
        Attribute.Chain (MethodDecl.withAttribute final.toPool) entries
          (draft.headed deprecated annotations [] body)
          (draft.headed deprecated annotations draft.parameterAnnotations body) := by
  have members := Drafting.ensures_mapM given fun uses member =>
    AnnotationUse.ensures_annotations fits (draftFits.parameterAnnotations uses member)
  have bound := draftFits.parameters
  have small := draftFits.parameterBytes
  revert members bound small
  cases draft.parameterAnnotations with
  | nil =>
      intro _ _ _
      exact Drafting.ensures_pure fun _ => ⟨Nat.zero_le 1, fun _ _ _ => .nil _⟩
  | cons uses rest =>
      intro members bound small
      apply members.bind
      intro pieces
      apply Drafting.ensures_pure
      rintro ⟨_, members⟩
      have count : (UInt8.ofNat (uses :: rest).length).toNat = (uses :: rest).length := by
        rw [UInt8.toNat_ofNat', Nat.mod_eq_of_lt (Nat.lt_succ_of_le bound)]
      have reads : (AnnotationUse.readParameters final.toPool).Reads
          (UInt8.ofNat (uses :: rest).length :: pieces.flatten) (uses :: rest) :=
        (reads_byte _ _).bind (reads_times (members.imp fun _ _ => And.right) count)
      have size := length_flatten_eq_sumBy (members.imp fun _ _ => And.left)
      refine ⟨Nat.le_refl 1, fun _ _ _ => .single ?_ ?_⟩
      · rw [List.length_cons, size, Nat.add_comm]
        exact small
      · intro offset
        simp only [MethodDecl.withAttribute, Attribute.parse_eq_ok reads]
        rfl

/-- The attributes of a method fill in all that its header does not say. -/
theorem ensures_attributes (fits : final.Fits) {draft : MethodDraft} (draftFits : draft.Fits) :
    Drafting.Ensures final given draft.attributes fun entries => entries.length ≤ 65535 ∧
      ∃ body, Option.Rel (CodeDraft.StandsFor final.toPool.symbolAt) draft.code body ∧
        Attribute.Chain (MethodDecl.withAttribute final.toPool) entries
          (draft.headed false [] [] none)
          (draft.headed (draft.deprecated || draft.annotations.any AnnotationUse.isDeprecation)
            draft.annotations draft.parameterAnnotations body) := by
  apply (ensures_codeAttribute fits draftFits).bind
  intro code
  apply (Drafting.ensures_annotationAttribute fits draftFits.annotations
    draftFits.annotationBytes).bind
  intro own
  apply (ensures_parameterAttribute fits draftFits).bind
  intro parameters
  apply Drafting.ensures_pure
  rintro ⟨⟨⟨_, fewCode, body, stands, codeChain⟩, fewOwn, ownChain⟩, fewParameters, parameterChain⟩
  constructor
  · have fewDeprecated :
        (if draft.deprecated then [("Deprecated", ([] : Bytes))] else []).length ≤ 1 := by
      cases draft.deprecated <;> decide
    simp only [List.length_append]
    omega
  · have ownChain := ownChain MethodDecl (MethodDecl.withAttribute final.toPool) fun uses =>
      draft.headed (draft.deprecated || uses.any AnnotationUse.isDeprecation) uses [] body
    simp only [List.any_nil, Bool.or_false] at ownChain
    have ownChain := ownChain fun bytes offset reads => by
      simp only [MethodDecl.withAttribute, Attribute.parse_eq_ok reads]
      rfl
    exact ⟨body, stands, ((codeChain.append (draft.chain_deprecated _ body)).append
      ownChain).append (parameterChain _ _ body)⟩

/-- A method is read back from the bytes that it is written as. -/
theorem ensures_encode (fits : final.Fits) {draft : MethodDraft} (draftFits : draft.Fits) :
    Drafting.Ensures final given draft.encode fun bytes =>
      ∃ method, draft.StandsFor final.toPool.symbolAt method ∧
        (MethodDecl.read final.toPool).Reads bytes method := by
  apply (Drafting.ensures_utf8 fits draft.name).bind
  intro name
  apply (Drafting.ensures_utf8 fits draft.descriptor).bind
  intro descriptor
  apply (ensures_attributes fits draftFits).bind
  intro entries
  apply (Attribute.ensures_attributes fits entries).bind
  intro attributes
  apply Drafting.ensures_pure
  rintro ⟨⟨⟨⟨_, named⟩, described⟩, few, body, stands, chain⟩, held⟩
  refine ⟨draft.headed _ _ _ body, ⟨rfl, rfl, rfl, rfl, rfl, rfl, stands⟩, ?_⟩
  rw [List.append_assoc, List.append_assoc]
  apply (reads_word _ _).bind
  apply (reads_word _ _).bind
  apply (reads_ofExcept named).bind_of_nil
  apply (reads_word _ _).bind
  apply (reads_ofExcept described).bind_of_nil
  exact held.reads .methodAttributes few chain

end MethodDraft

end ApiCoverage.ClassFile
