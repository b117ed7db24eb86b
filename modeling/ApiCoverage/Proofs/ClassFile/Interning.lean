import ApiCoverage.Proofs.ClassFile.DraftNames
import ApiCoverage.Proofs.ClassFile.Slots

/-!
# Every constant stands in one slot

A constant is added to a pool only if the pool lacks it, numbers of two slots apart. Constants refer to
each other by slots, so two of them may differ and still say the same: only because a text stands in one
slot does every class stand in one slot, and every name with a descriptor, and so every method
reference. Drafting keeps to this as long as slot numbers fit two bytes. The names of classes are written
with slashes alone, so the two spellings of a name are one text.
-/

namespace ApiCoverage.ClassFile

/-- Names of classes without dots are told apart by their dotted forms. -/
theorem Pool.eq_of_dottedName_eq {first second : String} (undotted : '.' ∉ first.toList)
    (undotted' : '.' ∉ second.toList) (same : dottedName first = dottedName second) :
    first = second := by
  have chars := congrArg (fun name => Descriptor.slashed name.toList) same
  simp only [dottedName, String.toList_ofList, Descriptor.slashed_dotted,
    Descriptor.slashed_eq_self undotted, Descriptor.slashed_eq_self undotted'] at chars
  exact String.toList_injective chars

/-! ## Where constants stand -/

section Stands

variable {constants : List Constant} {slot : Nat} {constant : Constant}

theorem Stands.mem (stands : Stands constants slot constant) : constant ∈ constants := by
  rcases stands with ⟨before, after, rfl, _⟩
  exact List.mem_append_right _ List.mem_cons_self

/-- A slot holds one constant. -/
theorem Stands.eq {second : Constant} (stands : Stands constants slot constant)
    (also : Stands constants slot second) : constant = second := by
  rw [← PoolDraft.getElem?_slots_iff_stands] at stands also
  rw [stands] at also
  exact Option.some.inj (Option.some.inj also)

theorem Stands.of_prefix {more : List Constant} (stands : Stands constants slot constant)
    (grown : constants <+: more) : Stands more slot constant := by
  rcases stands with ⟨before, after, rfl, behind⟩
  rcases grown with ⟨rest, rfl⟩
  exact ⟨before, after ++ rest, by simp, behind⟩

/-- A constant more stands in the first slot behind the others. -/
theorem stands_concat_iff {added : Constant} :
    Stands (constants ++ [added]) slot constant ↔
      Stands constants slot constant ∨
        slot = 1 + PoolDraft.widths constants ∧ constant = added := by
  constructor
  · rintro ⟨before, after, split, behind⟩
    rcases List.eq_nil_or_concat after with rfl | ⟨between, last, rfl⟩
    · rcases List.append_inj' split rfl with ⟨rfl, same⟩
      exact .inr ⟨behind, (List.cons.inj same).1.symm⟩
    · rw [List.concat_eq_append, ← List.cons_append, ← List.append_assoc] at split
      exact .inl ⟨before, between, (List.append_inj' split rfl).1, behind⟩
  · rintro (stands | ⟨rfl, rfl⟩)
    · exact stands.of_prefix (List.prefix_append _ _)
    · exact ⟨constants, [], rfl, rfl⟩

/-- Constants stand in the slots that are counted. -/
theorem Stands.inside (stands : Stands constants slot constant) :
    1 ≤ slot ∧ slot ≤ PoolDraft.widths constants := by
  rcases stands with ⟨before, after, rfl, rfl⟩
  have taken : 1 ≤ constant.width := by
    rw [Constant.width]
    split <;> decide
  simp only [PoolDraft.widths, sumBy_append, sumBy_cons]
  omega

theorem Stands.ofNat (stands : Stands constants slot constant)
    (few : 1 + PoolDraft.widths constants ≤ 65535) :
    Stands constants (UInt16.ofNat slot).toNat constant := by
  have small : slot ≤ 65535 := by
    have inside := stands.inside
    omega
  rwa [toNat_ofNat_of_le small]

/-- No constant stands in the second slot of a wide one. -/
theorem not_stands_behind_wide (stands : Stands constants slot constant)
    (wide : constant.isWide = true) (second : Constant) : ¬Stands constants (slot + 1) second := by
  rcases stands with ⟨before, after, rfl, rfl⟩
  have next : 1 + PoolDraft.widths before + 1 = 2 + PoolDraft.widths before :=
    Nat.add_right_comm 1 _ 1
  rw [← PoolDraft.getElem?_slots_iff_stands, next,
    PoolDraft.getElem?_slots_of_wide before after wide]
  simp

end Stands

/-- No narrow constant stands in two slots, and the texts of class names hold no dots. -/
structure Interned (constants : List Constant) : Prop where
  unique : ∀ {slot other constant}, constant.isWide = false → Stands constants slot constant →
    Stands constants other constant → slot = other
  slashed : ∀ name, .classReference name ∈ constants →
    ∃ text, Stands constants name.toNat (.utf8 text) ∧ '.' ∉ text.toList

namespace Interned

variable {constants : List Constant}

theorem nil : Interned [] := by
  constructor
  · intro slot other constant _ stands
    exact absurd stands.mem List.not_mem_nil
  · intro name member
    cases member

/-- A constant that is wide or new can be added; the text of a class name has to be there. -/
theorem concat {constant : Constant} (interned : Interned constants)
    (fresh : constant.isWide = false → constant ∉ constants)
    (named : ∀ name, constant = .classReference name →
      ∃ text, Stands constants name.toNat (.utf8 text) ∧ '.' ∉ text.toList) :
    Interned (constants ++ [constant]) := by
  constructor
  · intro slot other held narrow stands also
    rw [stands_concat_iff] at stands also
    rcases stands with stands | ⟨rfl, rfl⟩
    · rcases also with also | ⟨_, rfl⟩
      · exact interned.unique narrow stands also
      · exact absurd stands.mem (fresh narrow)
    · rcases also with also | ⟨rfl, _⟩
      · exact absurd also.mem (fresh narrow)
      · rfl
  · intro name member
    have known : ∃ text, Stands constants name.toNat (.utf8 text) ∧ '.' ∉ text.toList := by
      rcases List.mem_append.1 member with old | new
      · exact interned.slashed name old
      · exact named name (List.mem_singleton.1 new).symm
    exact known.imp fun text => And.imp_left fun stands => stands.of_prefix (List.prefix_append _ _)

theorem dot_not_mem {slot : Nat} {name : UInt16} {text : String} (interned : Interned constants)
    (stands : Stands constants slot (.classReference name))
    (named : Stands constants name.toNat (.utf8 text)) : '.' ∉ text.toList := by
  rcases interned.slashed name stands.mem with ⟨given, there, undotted⟩
  cases there.eq named
  exact undotted

/-- Indexes that lead to the same method are the same. -/
theorem leadTo_unique (interned : Interned constants) {owner member owner' member' : UInt16}
    {ref : MemberRef} (leads : LeadTo constants owner member ref)
    (leads' : LeadTo constants owner' member' ref) : owner = owner' ∧ member = member' := by
  constructor
  · rcases leads.owner with ⟨name, text, stands, named, owned⟩
    rcases leads'.owner with ⟨name', text', stands', named', owned'⟩
    obtain rfl : text = text' := Pool.eq_of_dottedName_eq (interned.dot_not_mem stands named)
      (interned.dot_not_mem stands' named') (owned.symm.trans owned')
    obtain rfl : name = name' := UInt16.toNat_inj.1 (interned.unique rfl named named')
    exact UInt16.toNat_inj.1 (interned.unique rfl stands stands')
  · rcases leads.member with ⟨name, descriptor, stands, named, described⟩
    rcases leads'.member with ⟨name', descriptor', stands', named', described'⟩
    obtain rfl : name = name' := UInt16.toNat_inj.1 (interned.unique rfl named named')
    obtain rfl : descriptor = descriptor' :=
      UInt16.toNat_inj.1 (interned.unique rfl described described')
    exact UInt16.toNat_inj.1 (interned.unique rfl stands stands')

/-- No method is meant by two slots. -/
theorem means_unique (interned : Interned constants) {slot slot' : Nat} {symbol : Symbol}
    (present : symbol ≠ .other) (means : Means constants slot symbol)
    (means' : Means constants slot' symbol) : slot = slot' := by
  cases means with
  | method stands leads =>
      cases means' with
      | method stands' leads' =>
          obtain ⟨rfl, rfl⟩ := interned.leadTo_unique leads leads'
          exact interned.unique rfl stands stands'
  | interfaceMethod stands leads =>
      cases means' with
      | interfaceMethod stands' leads' =>
          obtain ⟨rfl, rfl⟩ := interned.leadTo_unique leads leads'
          exact interned.unique rfl stands stands'
  | other => exact absurd rfl present

end Interned

/-! ## Drafting -/

theorem PoolDraft.nextSlot_le_of_within {pool final : PoolDraft} (within : pool.Within final) :
    pool.nextSlot ≤ final.nextSlot := by
  rcases within with ⟨more, grown⟩
  rw [nextSlot, nextSlot, ← grown, widths, widths, sumBy_append]
  omega

theorem PoolDraft.slotOf?_eq_none_iff {constant : Constant} {start : Nat}
    {constants : List Constant} :
    slotOf? constant start constants = none ↔ constant ∉ constants := by
  induction constants generalizing start with
  | nil => simp [slotOf?]
  | cons other rest ih =>
      rw [slotOf?]
      split
      · next same => simp [same]
      · next differs => simp [ih, Ne.symm differs]

namespace Drafting

variable {α β : Type}

/-- A step that extends its pool and, as long as slot numbers fit two bytes, leaves every constant in
one slot. -/
def Keeps (drafting : Drafting α) : Prop :=
  ∀ pool, pool.Within (drafting pool).2 ∧ ((drafting pool).2.nextSlot ≤ 65535 →
    Interned pool.constants → Interned (drafting pool).2.constants)

theorem keeps_pure (value : α) : Keeps (pure value) :=
  fun pool => ⟨.refl pool, fun _ interned => interned⟩

theorem Keeps.bind {first : Drafting α} {next : α → Drafting β} (before : Keeps first)
    (after : ∀ value, Keeps (next value)) : Keeps (first >>= next) := by
  intro pool
  rcases before pool with ⟨grown, kept⟩
  rcases after (first pool).1 (first pool).2 with ⟨later, keptLater⟩
  constructor
  · exact grown.trans later
  · intro few interned
    exact keptLater few (kept (Nat.le_trans (PoolDraft.nextSlot_le_of_within later) few) interned)

theorem keeps_mapM {step : α → Drafting β} (members : ∀ member, Keeps (step member))
    (list : List α) : Keeps (list.mapM step) := by
  induction list with
  | nil => exact keeps_pure []
  | cons head rest ih =>
      rw [List.mapM_cons]
      exact (members head).bind fun _ => ih.bind fun _ => keeps_pure _

/-- Wide constants stand beside equal ones. -/
theorem keeps_append {constant : Constant} (wide : constant.isWide = true) :
    Keeps (append constant) := by
  intro pool
  constructor
  · exact pool.within_append [constant]
  · intro _ interned
    apply interned.concat
    · intro narrow
      rw [wide] at narrow
      cases narrow
    · rintro name rfl
      cases wide

/-- A constant is found where it stands, or it is new. -/
theorem intern_cases (constant : Constant) (pool : PoolDraft) :
    (∃ slot, Stands pool.constants slot constant ∧
      intern constant pool = (UInt16.ofNat slot, pool)) ∨
    constant ∉ pool.constants ∧ intern constant pool = append constant pool := by
  cases found : PoolDraft.slotOf? constant 1 pool.constants with
  | some slot =>
      have stands := PoolDraft.holds_iff.1 (PoolDraft.holds_of_slotOf? found)
      exact .inl ⟨slot, stands, by rw [intern, found]⟩
  | none => exact .inr ⟨PoolDraft.slotOf?_eq_none_iff.1 found, by rw [intern, found]⟩

theorem within_intern (constant : Constant) (pool : PoolDraft) :
    pool.Within (intern constant pool).2 := by
  rcases intern_cases constant pool with ⟨slot, _, found⟩ | ⟨_, added⟩
  · rw [found]
    exact .refl pool
  · rw [added]
    exact pool.within_append [constant]

/-- A constant stands in the slot that is given for it. -/
theorem stands_intern {constant : Constant} {pool : PoolDraft}
    (few : (intern constant pool).2.nextSlot ≤ 65535) :
    Stands (intern constant pool).2.constants (intern constant pool).1.toNat constant := by
  rcases intern_cases constant pool with ⟨slot, stands, found⟩ | ⟨_, added⟩
  · rw [found] at few ⊢
    exact stands.ofNat few
  · rw [added] at few ⊢
    have stands : Stands (pool.constants ++ [constant]) pool.nextSlot constant :=
      stands_concat_iff.2 (.inr ⟨rfl, rfl⟩)
    exact stands.ofNat few

theorem interned_intern {constant : Constant} {pool : PoolDraft} (interned : Interned pool.constants)
    (named : ∀ name, constant = .classReference name →
      ∃ text, Stands pool.constants name.toNat (.utf8 text) ∧ '.' ∉ text.toList) :
    Interned (intern constant pool).2.constants := by
  rcases intern_cases constant pool with ⟨slot, _, found⟩ | ⟨new, added⟩
  · rw [found]
    exact interned
  · rw [added]
    exact interned.concat (fun _ => new) named

theorem keeps_intern {constant : Constant} (other : ∀ name, constant ≠ .classReference name) :
    Keeps (intern constant) :=
  fun pool => ⟨within_intern constant pool, fun _ interned =>
    interned_intern interned fun name same => absurd same (other name)⟩

theorem keeps_utf8 (text : String) : Keeps (utf8 text) :=
  keeps_intern fun _ => Constant.noConfusion

/-- A class is added behind its name, which is written with slashes. -/
theorem keeps_classReference (name : String) : Keeps (classReference name) := by
  intro pool
  let text := String.ofList (Descriptor.slashed name.toList)
  let named := utf8 text pool
  have grown : pool.Within named.2 := within_intern _ pool
  have later : named.2.Within (classReference name pool).2 :=
    within_intern (.classReference named.1) named.2
  have undotted : '.' ∉ text.toList := by
    rw [String.toList_ofList]
    exact Descriptor.dot_not_mem_slashed name.toList
  constructor
  · exact grown.trans later
  · intro few interned
    have fewNamed : named.2.nextSlot ≤ 65535 :=
      Nat.le_trans (PoolDraft.nextSlot_le_of_within later) few
    apply interned_intern ((keeps_utf8 text pool).2 fewNamed interned)
    rintro slot same
    cases same
    exact ⟨text, stands_intern fewNamed, undotted⟩

theorem keeps_nameAndType (name descriptor : String) : Keeps (nameAndType name descriptor) :=
  (keeps_utf8 name).bind fun _ => (keeps_utf8 descriptor).bind fun _ =>
    keeps_intern fun _ => Constant.noConfusion

theorem keeps_member {make : UInt16 → UInt16 → Constant}
    (other : ∀ owner nameAndType name, make owner nameAndType ≠ .classReference name)
    (ref : MemberRef) : Keeps (member make ref) := by
  apply (keeps_classReference ref.owner).bind
  intro owner
  apply (keeps_nameAndType ref.name ref.descriptor).bind
  intro nameAndType
  exact keeps_intern (other owner nameAndType)

theorem keeps_method (ref : MemberRef) : Keeps (method ref) :=
  keeps_member (fun _ _ _ => Constant.noConfusion) ref

theorem keeps_interfaceMethod (ref : MemberRef) : Keeps (interfaceMethod ref) :=
  keeps_member (fun _ _ _ => Constant.noConfusion) ref

/-! ## The parts of a class file -/

theorem keeps_attributes (list : List (String × Bytes)) : Keeps (attributes list) := by
  apply Keeps.bind
  · apply keeps_mapM
    intro entry
    exact (keeps_utf8 entry.1).bind fun _ => keeps_pure _
  · exact fun _ => keeps_pure _

theorem keeps_annotationUse (use : AnnotationUse) : Keeps (annotationUse use) := by
  apply (keeps_utf8 _).bind
  intro type
  apply Keeps.bind
  · apply keeps_mapM
    intro name
    exact (keeps_utf8 name).bind fun _ => keeps_pure _
  · exact fun _ => keeps_pure _

theorem keeps_annotations (uses : List AnnotationUse) : Keeps (annotations uses) :=
  (keeps_mapM keeps_annotationUse uses).bind fun _ => keeps_pure _

theorem keeps_annotationAttribute (uses : List AnnotationUse) : Keeps (annotationAttribute uses) := by
  cases uses with
  | nil => exact keeps_pure []
  | cons use rest => exact (keeps_annotations (use :: rest)).bind fun _ => keeps_pure _

end Drafting

open Drafting (keeps_pure keeps_mapM keeps_utf8 keeps_classReference keeps_attributes
  keeps_annotationAttribute)

theorem CodeStep.keeps_encode (step : CodeStep) : step.encode.Keeps := by
  cases step with
  | line => exact keeps_pure _
  | raw => exact keeps_pure _
  | invoke kind ref =>
      cases kind with
      | interface => exact (Drafting.keeps_interfaceMethod ref).bind fun _ => keeps_pure _
      | virtual | special | static =>
          exact (Drafting.keeps_method ref).bind fun _ => keeps_pure _

theorem CodeDraft.keeps_encode (draft : CodeDraft) : draft.encode.Keeps :=
  (keeps_mapM CodeStep.keeps_encode draft.steps).bind fun _ =>
    (keeps_attributes _).bind fun _ => keeps_pure _

namespace MethodDraft

theorem keeps_codeAttribute (code : Option CodeDraft) : (codeAttribute code).Keeps := by
  cases code with
  | none => exact keeps_pure []
  | some code => exact code.keeps_encode.bind fun _ => keeps_pure _

theorem keeps_parameterAttribute (lists : List (List AnnotationUse)) :
    (parameterAttribute lists).Keeps := by
  cases lists with
  | nil => exact keeps_pure []
  | cons uses rest =>
      exact (keeps_mapM Drafting.keeps_annotations (uses :: rest)).bind fun _ => keeps_pure _

theorem keeps_encode (draft : MethodDraft) : draft.encode.Keeps := by
  have attributes : draft.attributes.Keeps :=
    (keeps_codeAttribute draft.code).bind fun _ =>
      (keeps_annotationAttribute draft.annotations).bind fun _ =>
        (keeps_parameterAttribute draft.parameterAnnotations).bind fun _ => keeps_pure _
  apply (keeps_utf8 draft.name).bind
  intro name
  apply (keeps_utf8 draft.descriptor).bind
  intro descriptor
  apply attributes.bind
  intro entries
  exact (keeps_attributes entries).bind fun _ => keeps_pure _

end MethodDraft

namespace ClassDraft

theorem keeps_sourceAttribute (file : Option String) : (sourceAttribute file).Keeps := by
  cases file with
  | none => exact keeps_pure []
  | some file => exact (keeps_utf8 file).bind fun _ => keeps_pure _

theorem keeps_superclassSlot (superName : Option String) : (superclassSlot superName).Keeps := by
  cases superName with
  | none => exact keeps_pure 0
  | some name => exact keeps_classReference name

theorem keeps_encodeBody (draft : ClassDraft) : draft.encodeBody.Keeps := by
  have attributes : draft.attributes.Keeps :=
    (keeps_sourceAttribute draft.sourceFile).bind fun _ =>
      (keeps_annotationAttribute draft.annotations).bind fun _ => keeps_pure _
  apply (keeps_classReference draft.name).bind
  intro name
  apply (keeps_superclassSlot draft.superName).bind
  intro superclass
  apply (keeps_mapM keeps_classReference draft.interfaces).bind
  intro interfaces
  apply (keeps_mapM MethodDraft.keeps_encode draft.methods).bind
  intro methods
  apply attributes.bind
  intro entries
  exact (keeps_attributes entries).bind fun _ => keeps_pure _

/-- A step keeps every constant of the draft in one slot. -/
theorem apply_keeps (draft : ClassDraft) (step : ClassStep) :
    draft.pool.Within (draft.apply step).1.pool ∧
      ((draft.apply step).1.pool.nextSlot ≤ 65535 → Interned draft.pool.constants →
        Interned (draft.apply step).1.pool.constants) := by
  cases step with
  | reserveMethod ref =>
      simp only [apply, reserve_fst]
      exact Drafting.keeps_method ref draft.pool
  | reserveInterfaceMethod ref =>
      simp only [apply, reserve_fst]
      exact Drafting.keeps_interfaceMethod ref draft.pool
  | reserveLong value =>
      simp only [apply, reserve_fst]
      exact Drafting.keeps_append rfl draft.pool
  | access | version | superclass | implements | sourceFile | annotate | method =>
      exact ⟨.refl _, fun _ interned => interned⟩

/-- Steps one after another keep every constant of the draft in one slot. -/
theorem applyAll_keeps (draft : ClassDraft) (steps : List ClassStep) :
    draft.pool.Within (draft.applyAll steps).1.pool ∧
      ((draft.applyAll steps).1.pool.nextSlot ≤ 65535 → Interned draft.pool.constants →
        Interned (draft.applyAll steps).1.pool.constants) :=
  applyAll_preserves (·.nextSlot ≤ 65535) (Interned ·.constants)
    (fun grown few => Nat.le_trans (PoolDraft.nextSlot_le_of_within grown) few) apply_keeps draft
    steps

/-- What steps have drafted stays in front of the pool that the class file is written with. -/
theorem within_finalPool (draft : ClassDraft) : draft.pool.Within draft.finalPool :=
  (keeps_encodeBody draft draft.pool).1

/-- In the pool that a class file is written with, every constant stands in one slot. -/
theorem interned_finalPool {kind : TypeKind} {name : String} {steps : List ClassStep}
    (few : (ofSteps kind name steps).finalPool.nextSlot ≤ 65535) :
    Interned (ofSteps kind name steps).finalPool.constants := by
  have empty : Interned (ofKind kind name).pool.constants := by
    cases kind <;> exact .nil
  have fewDrafted := PoolDraft.nextSlot_le_of_within (within_finalPool (ofSteps kind name steps))
  have drafted := (applyAll_keeps (ofKind kind name) steps).2 (Nat.le_trans fewDrafted few) empty
  exact (keeps_encodeBody (ofSteps kind name steps) _).2 few drafted

end ClassDraft

end ApiCoverage.ClassFile
