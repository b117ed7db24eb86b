import ApiCoverage.Proofs.ClassFile.DraftMethod
import ApiCoverage.Proofs.ClassFile.Sections

/-!
# Class files read back as they were drafted

A class draft that fits the format is assembled into a class file that opens, and the unit has exactly
the parts of the draft: the header, the annotations and the methods in order, and in the code of every
method the calls of the methods that were named. The pool of the unit holds what the drafting steps
asked for, reservations included.
-/

namespace ApiCoverage.ClassFile

open Reader (reads_word reads_byte reads_doubleWord reads_take reads_take_of_length reads_times
  reads_ofExcept)

variable {final : PoolDraft} {given : Prop}

/-! ## Resolving the pool -/

namespace PoolDraft

/-- A pool whose constants all resolve has symbols for all its slots. -/
theorem Linked.exists_symbols {pool : PoolDraft} (linked : pool.Linked pool) :
    ∃ symbols, pool.toPool.symbols = .ok symbols ∧
      ∀ slot : UInt16, symbols.toArray[slot.toNat]? = pool.toPool.symbolAt slot := by
  have resolves : ∀ entry ∈ pool.toPool.slots.toList,
      ∃ symbol, pool.toPool.symbol entry = .ok symbol := by
    intro entry member
    cases entry with
    | none => exact ⟨.other, rfl⟩
    | some constant => exact linked constant (mem_slots_toPool.1 member)
  rcases Pool.exists_symbols_iff.2 resolves with ⟨symbols, resolved⟩
  refine ⟨symbols, resolved, ?_⟩
  intro slot
  have members := Pool.symbols_eq_ok_iff.1 resolved
  rw [List.getElem?_toArray, Pool.getElem?_eq_of_resolved members, Pool.symbolAt,
    Array.getElem?_toList]

end PoolDraft

/-! ## Sections of a class -/

/-- Members that are each related through a value of their own are related through a list. -/
theorem exists_forall₂_of_forall₂_exists {α β γ : Type} {first : α → β → Prop}
    {second : β → γ → Prop} {members : List α} {results : List γ}
    (related : List.Forall₂ (fun member result => ∃ value, first member value ∧
      second value result) members results) :
    ∃ values, List.Forall₂ first members values ∧ List.Forall₂ second values results := by
  induction related with
  | nil => exact ⟨[], .nil, .nil⟩
  | cons head _ ih =>
      rcases head with ⟨value, front, back⟩
      rcases ih with ⟨values, fronts, backs⟩
      exact ⟨value :: values, .cons front fronts, .cons back backs⟩

namespace ClassDraft

/-- No class stands in slot 0, which the format therefore uses for the lack of one. -/
theorem ne_zero_of_className {slot : UInt16} {name : String}
    (named : final.toPool.className slot = .ok name) : slot ≠ 0 := by
  rintro rfl
  simp [Pool.className, Pool.get?, PoolDraft.toPool] at named

theorem ensures_superclassSlot (fits : final.Fits) {superName : Option String}
    (unslashed : ∀ name ∈ superName, '/' ∉ name.toList) :
    Drafting.Ensures final given (superclassSlot superName) fun slot =>
      (ClassUnit.readSuper final.toPool).Reads (Bytes.ofUInt16 slot) superName := by
  cases superName with
  | none =>
      apply Drafting.ensures_pure
      intro _
      exact (reads_word .classHeader 0).bind_pure fun _ => none
  | some name =>
      apply (Drafting.ensures_classReference fits name).imp id
      intro slot _ named
      rw [Pool.dottedName_eq_self (unslashed name rfl)] at named
      have present : (slot == 0) = false := beq_false_of_ne (ne_zero_of_className named)
      rw [← List.append_nil (Bytes.ofUInt16 slot)]
      apply (reads_word _ slot).bind
      rw [present, named]
      exact Reader.reads_pure (some name)

/-- The interfaces are read back by their names in order. -/
theorem ensures_interfaces (fits : final.Fits) {names : List String} (count : names.length ≤ 65535)
    (unslashed : ∀ name ∈ names, '/' ∉ name.toList) :
    Drafting.Ensures final given (names.mapM Drafting.classReference) fun slots =>
      (ClassUnit.readInterfaces final.toPool).Reads
        (Drafting.count slots.length ++ slots.flatMap Bytes.ofUInt16) names := by
  have members : Drafting.Ensures final given (names.mapM Drafting.classReference)
      (List.Forall₂ (fun name slot => final.toPool.className slot = .ok name) names) := by
    apply Drafting.ensures_mapM
    intro name member
    apply (Drafting.ensures_classReference fits name).imp id
    intro slot _ named
    rwa [Pool.dottedName_eq_self (unslashed name member)] at named
  apply members.imp id
  intro slots _ classes
  have pieces : List.Forall₂ (fun (name : String) (piece : Bytes) =>
      (Reader.word .interfaces >>= fun slot =>
        Reader.ofExcept (final.toPool.className slot)).Reads piece name)
      names (slots.map Bytes.ofUInt16) := by
    rw [List.forall₂_map_right_iff]
    apply classes.imp
    intro name slot named
    rw [← List.append_nil (Bytes.ofUInt16 slot)]
    exact (reads_word _ slot).bind (reads_ofExcept named)
  rw [← classes.length_eq, List.flatMap_def]
  exact (reads_word _ _).bind (reads_times pieces (toNat_ofNat_of_le count))

theorem reads_noFields : ClassUnit.skipFields.Reads (Drafting.count 0) () := by
  rw [← List.append_nil (Drafting.count 0)]
  apply (reads_word _ 0).bind
  exact (reads_times .nil rfl).bind_pure fun _ => ()

/-- The methods are read back in order. -/
theorem ensures_methods (fits : final.Fits) {drafts : List MethodDraft}
    (count : drafts.length ≤ 65535) (draftsFit : ∀ draft ∈ drafts, draft.Fits) :
    Drafting.Ensures final given (drafts.mapM MethodDraft.encode) fun pieces =>
      ∃ methods, List.Forall₂ (MethodDraft.StandsFor final.toPool.symbolAt) drafts methods ∧
        (ClassUnit.readMethods final.toPool).Reads
          (Drafting.count pieces.length ++ pieces.flatten) methods := by
  have members := Drafting.ensures_mapM given fun draft member =>
    MethodDraft.ensures_encode fits (draftsFit draft member)
  apply members.imp id
  intro pieces _ written
  rcases exists_forall₂_of_forall₂_exists written with ⟨methods, stand, reads⟩
  have count_eq : (UInt16.ofNat pieces.length).toNat = methods.length := by
    rw [← written.length_eq, toNat_ofNat_of_le count, stand.length_eq]
  exact ⟨methods, stand, (reads_word _ _).bind (reads_times reads count_eq)⟩

/-- The attributes of a class say its source file and its annotations. -/
theorem ensures_attributes (fits : final.Fits) {draft : ClassDraft} (draftFits : draft.Fits) :
    Drafting.Ensures final given draft.attributes fun entries => entries.length ≤ 65535 ∧
      Attribute.Chain (ClassUnit.Attributes.extend final.toPool) entries ⟨none, []⟩
        ⟨draft.sourceFile, draft.annotations⟩ := by
  have source : Drafting.Ensures final given (sourceAttribute draft.sourceFile) fun entries =>
      entries.length ≤ 1 ∧ Attribute.Chain (ClassUnit.Attributes.extend final.toPool) entries
        ⟨none, []⟩ ⟨draft.sourceFile, []⟩ := by
    cases draft.sourceFile with
    | none => exact Drafting.ensures_pure fun _ => ⟨Nat.zero_le 1, .nil _⟩
    | some file =>
        apply (Drafting.ensures_utf8 fits file).bind
        intro slot
        apply Drafting.ensures_pure
        rintro ⟨_, named⟩
        refine ⟨Nat.le_refl 1, .single (by simp [UInt32.size]) ?_⟩
        intro offset
        simp only [ClassUnit.Attributes.extend, Attribute.parse_eq_ok (reads_word _ slot)]
        change (final.toPool.utf8 slot >>= _) = _
        rw [named]
        rfl
  apply source.bind
  intro sourceEntries
  apply (Drafting.ensures_annotationAttribute fits draftFits.annotations
    draftFits.annotationBytes).bind
  intro ownEntries
  apply Drafting.ensures_pure
  rintro ⟨⟨_, fewSource, sourceChain⟩, fewOwn, ownChain⟩
  constructor
  · rw [List.length_append]
    omega
  · have ownChain := ownChain ClassUnit.Attributes (ClassUnit.Attributes.extend final.toPool)
      (ClassUnit.Attributes.mk draft.sourceFile)
    have ownChain := ownChain fun bytes offset reads => by
      simp only [ClassUnit.Attributes.extend, Attribute.parse_eq_ok reads]
      rfl
    exact sourceChain.append ownChain

/-- What follows the pool is read back as the parts of the draft, once the pool resolves. -/
theorem ensures_encodeBody (given : Prop) {draft : ClassDraft} (draftFits : draft.Fits)
    (fits : final.Fits) :
    Drafting.Ensures final given draft.encodeBody fun body =>
      ∃ methods, List.Forall₂ (MethodDraft.StandsFor final.toPool.symbolAt) draft.methods methods ∧
        ∀ symbols offset, final.toPool.symbols = .ok symbols →
          (ClassUnit.readBody 0 draft.majorVersion final.toPool ⟨offset, body⟩).map Prod.fst =
            .ok ⟨0, draft.majorVersion, draft.access, draft.name, draft.superName,
              draft.interfaces, draft.sourceFile, draft.annotations, symbols.toArray, methods⟩ := by
  apply (Drafting.ensures_classReference fits draft.name).bind
  intro name
  apply (ensures_superclassSlot fits draftFits.superName).bind
  intro superclass
  apply (ensures_interfaces fits draftFits.interfaceCount draftFits.interfaces).bind
  intro interfaces
  apply (ensures_methods fits draftFits.methodCount draftFits.methods).bind
  intro pieces
  apply (ensures_attributes fits draftFits).bind
  intro entries
  apply (Attribute.ensures_attributes fits entries).bind
  intro attributes
  apply Drafting.ensures_pure
  rintro ⟨⟨⟨⟨⟨⟨_, named⟩, superclass_read⟩, interfaces_read⟩, methods, stand, methods_read⟩, few,
    chain⟩, held⟩
  refine ⟨methods, stand, ?_⟩
  intro symbols offset resolved
  rw [Pool.dottedName_eq_self draftFits.name] at named
  have attributes_read : (ClassUnit.readAttributes final.toPool).Reads attributes
      ⟨draft.sourceFile, draft.annotations⟩ := held.reads .classAttributes few chain
  simp only [List.append_assoc]
  rw [← List.append_assoc (Drafting.count interfaces.length),
    ← List.append_assoc (Drafting.count pieces.length), ← List.append_nil attributes,
    ClassUnit.readBody, (reads_word _ _).bind_apply, (reads_word _ _).bind_apply, named,
    Reader.ofExcept_ok_bind, superclass_read.bind_apply, interfaces_read.bind_apply,
    reads_noFields.bind_apply, methods_read.bind_apply, attributes_read.bind_apply, resolved]
  rfl

/-! ## The whole file -/

/-- Up to the end of the pool, a file is read as it was written. -/
theorem exists_ofBytes_assemble_eq {draft : ClassDraft} (fits : draft.Fits) :
    ∃ offset, ClassUnit.ofBytes draft.assemble =
      (ClassUnit.readBody 0 draft.majorVersion draft.finalPool.toPool
        ⟨offset, (draft.encodeBody draft.pool).1⟩).map Prod.fst := by
  have version := ClassUnit.reads_version 0 fits.oldest fits.newest
  have pool := PoolDraft.reads_toPool fits.pool
  have arranged : draft.assemble =
      (Bytes.ofUInt32 signature ++ (Bytes.ofUInt16 0 ++ Bytes.ofUInt16 draft.majorVersion)) ++
        ((Drafting.count draft.finalPool.nextSlot ++ draft.finalPool.encode) ++
          (draft.encodeBody draft.pool).1) := by
    simp only [assemble, finalPool, List.append_assoc]
    rfl
  rw [ClassUnit.ofBytes, arranged, ClassUnit.read, version.bind_apply]
  change ∃ offset, ((Pool.read >>= _) _).map Prod.fst = _
  rw [pool.bind_apply]
  exact ⟨_, rfl⟩

/-- A draft whose pool is linked is assembled into a class file that opens. The unit has the parts of
the draft, and its symbols are those of the pool that the draft ends with. -/
theorem exists_ofBytes_assemble {draft : ClassDraft} (fits : draft.Fits)
    (linked : draft.pool.Linked draft.finalPool) :
    ∃ unit, ClassUnit.ofBytes draft.assemble = .ok unit ∧ draft.StandsFor unit ∧
      unit.symbol? = draft.finalPool.toPool.symbolAt := by
  rcases ensures_encodeBody True fits fits.pool draft.pool with ⟨_, ensured⟩
  rcases ensured (.refl _) trivial linked with ⟨linked, methods, stand, opens⟩
  rcases PoolDraft.Linked.exists_symbols linked with ⟨symbols, resolved, same⟩
  rcases exists_ofBytes_assemble_eq fits with ⟨offset, opened⟩
  have answers : (fun slot : UInt16 => symbols.toArray[slot.toNat]?) =
      draft.finalPool.toPool.symbolAt := funext same
  rw [opens symbols offset resolved] at opened
  refine ⟨_, opened, ⟨rfl, rfl, rfl, rfl, rfl, rfl, rfl, rfl, ?_⟩, answers⟩
  change List.Forall₂ (MethodDraft.StandsFor fun slot => symbols.toArray[slot.toNat]?) _ _
  rw [answers]
  exact stand

/-! ## Steps before the file is written -/

/-- A reservation extends the pool and keeps it linked. -/
theorem reserve_linked {drafting : Drafting UInt16} {result : UInt16 → Prop}
    (ensures : Drafting.Ensures final True drafting result) (draft : ClassDraft) :
    draft.pool.Within (draft.reserve drafting).1.pool ∧
      ((draft.reserve drafting).1.pool.Within final → draft.pool.Linked final →
        (draft.reserve drafting).1.pool.Linked final) := by
  rcases ensures draft.pool with ⟨grown, ensured⟩
  exact ⟨grown, fun within linked => (ensured within trivial linked).1⟩

/-- A step extends the pool and keeps it linked. -/
theorem apply_linked (fits : final.Fits) (draft : ClassDraft) (step : ClassStep) :
    draft.pool.Within (draft.apply step).1.pool ∧
      ((draft.apply step).1.pool.Within final → draft.pool.Linked final →
        (draft.apply step).1.pool.Linked final) := by
  cases step with
  | reserveMethod ref => exact reserve_linked (Drafting.ensures_method fits ref) draft
  | reserveInterfaceMethod ref =>
      exact reserve_linked (Drafting.ensures_interfaceMethod fits ref) draft
  | reserveLong value =>
      exact reserve_linked (Drafting.ensures_append fits fun _ => ⟨.other, rfl⟩) draft
  | access | version | superclass | implements | sourceFile | annotate | method =>
      exact ⟨.refl _, fun _ linked => linked⟩

/-- Steps one after another extend the pool, and as long as it may grow so far they keep what each of
them keeps. -/
theorem applyAll_preserves (allowed kept : PoolDraft → Prop)
    (earlier : ∀ {pool later : PoolDraft}, pool.Within later → allowed later → allowed pool)
    (member : ∀ (draft : ClassDraft) (step : ClassStep),
      draft.pool.Within (draft.apply step).1.pool ∧
        (allowed (draft.apply step).1.pool → kept draft.pool → kept (draft.apply step).1.pool))
    (draft : ClassDraft) (steps : List ClassStep) :
    draft.pool.Within (draft.applyAll steps).1.pool ∧
      (allowed (draft.applyAll steps).1.pool → kept draft.pool →
        kept (draft.applyAll steps).1.pool) := by
  induction steps generalizing draft with
  | nil => exact ⟨.refl _, fun _ holds => holds⟩
  | cons step rest ih =>
      rcases member draft step with ⟨grown, keeps⟩
      rcases ih (draft.apply step).1 with ⟨later, keepsLater⟩
      constructor
      · exact grown.trans later
      · intro allowed holds
        exact keepsLater allowed (keeps (earlier later allowed) holds)

/-- Steps one after another extend the pool and keep it linked. -/
theorem applyAll_linked (fits : final.Fits) (draft : ClassDraft) (steps : List ClassStep) :
    draft.pool.Within (draft.applyAll steps).1.pool ∧
      ((draft.applyAll steps).1.pool.Within final → draft.pool.Linked final →
        (draft.applyAll steps).1.pool.Linked final) :=
  applyAll_preserves (·.Within final) (·.Linked final) PoolDraft.Within.trans (apply_linked fits)
    draft steps

end ClassDraft

/-- A class file is read back as it was drafted: whatever steps a draft is made of, if they stay
within the format, the file opens and the unit has exactly the parts that the steps gave. -/
theorem ofBytes_assemble_ofSteps (kind : TypeKind) (name : String) (steps : List ClassStep)
    (fits : (ClassDraft.ofSteps kind name steps).Fits) :
    (ClassDraft.ofKind kind name).Collects steps (ClassDraft.ofSteps kind name steps) ∧
      ∃ unit, ClassUnit.ofBytes (ClassDraft.ofSteps kind name steps).assemble = .ok unit ∧
        (ClassDraft.ofSteps kind name steps).StandsFor unit := by
  let draft := ClassDraft.ofSteps kind name steps
  have empty : (ClassDraft.ofKind kind name).pool.Linked draft.finalPool := by
    intro constant member
    cases kind <;> cases member
  have kept := (ClassDraft.applyAll_linked fits.pool (ClassDraft.ofKind kind name) steps).2
  have grown := (ClassDraft.ensures_encodeBody True fits fits.pool draft.pool).1
  rcases ClassDraft.exists_ofBytes_assemble fits (kept grown empty) with ⟨unit, opened, stands, _⟩
  exact ⟨ClassDraft.applyAll_collects _ steps, unit, opened, stands⟩

/-- Steps that fill every part of a class: a number behind which all slots are shifted, annotations
in all places, a parameter without one, and a body whose code is no instruction at its end. -/
def sampleSteps : List ClassStep :=
  [.reserveLong 5, .version 45, .implements "c.D", .sourceFile "B.java",
    .annotate ⟨"java.lang.Deprecated", ["since"]⟩,
    .method {
      name := "n", descriptor := "(IJ)V", deprecated := true
      annotations := [⟨"e.F", ["x", "x"]⟩], parameterAnnotations := [[], [⟨"e.F", []⟩]]
      code := some ⟨[.line 7, .invoke .interface ⟨"g.H", "m", "()V"⟩, .line 9,
        .invoke .static ⟨"a.B", "n", "(IJ)V"⟩, CodeStep.returnVoid, .raw [0xC4]], true⟩ }]

theorem ofBytes_assemble_sampleSteps :
    (ClassDraft.ofSteps .interfaceType "a.B" sampleSteps).Fits ∧
      (ClassDraft.ofKind .interfaceType "a.B").Collects sampleSteps
        (ClassDraft.ofSteps .interfaceType "a.B" sampleSteps) ∧
      ∃ unit, ClassUnit.ofBytes (ClassDraft.ofSteps .interfaceType "a.B" sampleSteps).assemble =
          .ok unit ∧ (ClassDraft.ofSteps .interfaceType "a.B" sampleSteps).StandsFor unit :=
  ⟨by decide +kernel, ofBytes_assemble_ofSteps .interfaceType "a.B" sampleSteps (by decide +kernel)⟩

end ApiCoverage.ClassFile
