import ApiCoverage.Proofs.ClassFile.Interning

/-!
# Slots that are reserved while drafting

A draft hands out slots for method references and for numbers before the class file is written. A slot
that was handed out once holds what it was handed out for in the class file, whatever is drafted
later. References share a slot exactly if they are of one kind, their owners have the same dotted form,
and their names and descriptors are the same; a number always gets two slots of its own.
-/

namespace ApiCoverage.ClassFile

/-- What a slot is reserved for. -/
inductive Reservation where
  | method (ref : MemberRef)
  | interfaceMethod (ref : MemberRef)
  | long (value : Int64)

namespace Reservation

/-- What a slot means that is reserved so. -/
def symbol : Reservation → Symbol
  | method ref => .method ref.dotted
  | interfaceMethod ref => .interfaceMethod ref.dotted
  | long _ => .other

/-- The step that reserves a slot. -/
def drafting : Reservation → Drafting UInt16
  | method ref => Drafting.method ref
  | interfaceMethod ref => Drafting.interfaceMethod ref
  | long value => Drafting.append (.long value.toUInt64)

/-- Among some constants, a slot holds a reference to the method, or the number, which has the slot
behind it to itself. -/
inductive HeldAt (constants : List Constant) : Reservation → UInt16 → Prop where
  | method {ref : MemberRef} {slot : UInt16}
      (means : Means constants slot.toNat (.method ref.dotted)) : HeldAt constants (method ref) slot
  | interfaceMethod {ref : MemberRef} {slot : UInt16}
      (means : Means constants slot.toNat (.interfaceMethod ref.dotted)) :
      HeldAt constants (interfaceMethod ref) slot
  | long {value : Int64} {slot : UInt16}
      (stands : Stands constants slot.toNat (.long value.toUInt64))
      (behind : ∀ constant, ¬Stands constants (slot.toNat + 1) constant) :
      HeldAt constants (long value) slot

/-- A unit lists a slot with what it is reserved for, and behind a number a slot that means nothing. -/
structure ListedBy (unit : ClassUnit) (reservation : Reservation) (slot : UInt16) : Prop where
  symbol : (slot.toNat, reservation.symbol) ∈ unit.symbolTable
  behind : reservation.symbol = .other → (slot.toNat + 1, .other) ∈ unit.symbolTable

/-- Two reservations share a slot if they are for the same method and of the same kind. Otherwise their
slots differ, and none of them is the second slot of the other. -/
structure Apart (first second : Reservation × UInt16) : Prop where
  shared : first.2 = second.2 ↔ first.1.symbol = second.1.symbol ∧ first.1.symbol ≠ .other
  behind : first.1.symbol = .other → second.2.toNat ≠ first.2.toNat + 1
  before : second.1.symbol = .other → first.2.toNat ≠ second.2.toNat + 1

end Reservation

namespace ClassStep

/-- The reservation that a step makes. -/
def reservation? : ClassStep → Option Reservation
  | reserveMethod ref => some (.method ref)
  | reserveInterfaceMethod ref => some (.interfaceMethod ref)
  | reserveLong value => some (.long value)
  | _ => none

end ClassStep

/-! ## Meanings -/

section Means

variable {constants : List Constant}

/-- A slot with a constant has one meaning. -/
theorem Means.eq {slot : Nat} {constant : Constant} {symbol second : Symbol}
    (stands : Stands constants slot constant) (means : Means constants slot symbol)
    (also : Means constants slot second) : symbol = second := by
  have entry := PoolDraft.getElem?_slots_iff_stands.2 stands
  rw [← PoolDraft.symbol_toPool_eq_ok_iff entry] at means also
  rw [means] at also
  exact Except.ok.inj also

theorem means_of_symbolAt {final : PoolDraft} {slot : UInt16} {symbol : Symbol}
    (answer : final.toPool.symbolAt slot = some symbol) :
    Means final.constants slot.toNat symbol := by
  rcases Option.bind_eq_some_iff.1 answer with ⟨entry, stands, resolved⟩
  apply (PoolDraft.symbol_toPool_eq_ok_iff stands).1
  cases outcome : final.toPool.symbol entry with
  | error fault => simp [outcome, Except.toOption] at resolved
  | ok found =>
      rw [outcome] at resolved
      exact congrArg _ (Option.some.inj resolved)

end Means

namespace Reservation

variable {constants : List Constant} {reservation : Reservation} {slot : UInt16}

/-- A reserved slot holds a constant and means what it is reserved for. -/
theorem HeldAt.exists_stands (held : HeldAt constants reservation slot) :
    ∃ constant, Stands constants slot.toNat constant := by
  cases held with
  | method means => cases means with | method stands => exact ⟨_, stands⟩
  | interfaceMethod means => cases means with | interfaceMethod stands => exact ⟨_, stands⟩
  | long stands => exact ⟨_, stands⟩

theorem HeldAt.means (held : HeldAt constants reservation slot) :
    Means constants slot.toNat reservation.symbol := by
  cases held with
  | method means => exact means
  | interfaceMethod means => exact means
  | long stands =>
      constructor
      · intro owner member also
        cases stands.eq also
      · intro owner member also
        cases stands.eq also

/-- Slots with their meanings are listed by a unit. -/
theorem HeldAt.listedBy {unit : ClassUnit} (held : HeldAt constants reservation slot)
    (aligned : Aligned constants unit) : ListedBy unit reservation slot := by
  constructor
  · rcases held.exists_stands with ⟨constant, stands⟩
    exact (aligned.means _ _).2 ⟨stands.inside, held.means⟩
  · intro long
    cases held with
    | method | interfaceMethod => cases long
    | long stands =>
        rcases stands with ⟨before, after, split, slot_eq⟩
        have next : slot.toNat + 1 = 2 + PoolDraft.widths before := by
          rw [slot_eq, Nat.add_right_comm]
        rw [next]
        exact aligned.second before _ after split rfl

/-- The slot behind a number is not handed out. -/
theorem HeldAt.ne_behind {long : Reservation} {number : UInt16} (held : HeldAt constants long number)
    (isLong : long.symbol = .other) (also : HeldAt constants reservation slot) :
    slot.toNat ≠ number.toNat + 1 := by
  rcases also.exists_stands with ⟨constant, stands⟩
  cases held with
  | method | interfaceMethod => cases isLong
  | long _ behind =>
      intro same
      exact behind constant (same ▸ stands)

/-- Slots for the same method are shared because no method is meant by two slots, and other slots differ
because they mean different methods. Two numbers have to be known to differ. -/
theorem HeldAt.apart {reservation' : Reservation} {slot' : UInt16} (interned : Interned constants)
    (held : HeldAt constants reservation slot) (held' : HeldAt constants reservation' slot')
    (numbers : reservation.symbol = .other → reservation'.symbol = .other → slot ≠ slot') :
    Apart (reservation, slot) (reservation', slot') := by
  refine ⟨⟨?_, ?_⟩, fun long => held.ne_behind long held', fun long => held'.ne_behind long held⟩
  · intro same
    obtain rfl : slot = slot' := same
    rcases held.exists_stands with ⟨constant, stands⟩
    have meaning : reservation.symbol = reservation'.symbol := Means.eq stands held.means held'.means
    exact ⟨meaning, fun long => numbers long (meaning.symm.trans long) rfl⟩
  · rintro ⟨meaning, present⟩
    have meaning : reservation.symbol = reservation'.symbol := meaning
    exact UInt16.toNat_inj.1 (interned.means_unique present held.means (meaning ▸ held'.means))

/-- What drafting a reservation ensures for its slot in the final pool. -/
theorem ensures_drafting {final : PoolDraft} (fits : final.Fits) (reservation : Reservation) :
    Drafting.Ensures final True reservation.drafting
      (HeldAt final.constants reservation) := by
  cases reservation with
  | method ref =>
      apply (Drafting.ensures_method fits ref).imp id
      intro slot _ answer
      exact .method (means_of_symbolAt answer)
  | interfaceMethod ref =>
      apply (Drafting.ensures_interfaceMethod fits ref).imp id
      intro slot _ answer
      exact .interfaceMethod (means_of_symbolAt answer)
  | long value =>
      apply (Drafting.ensures_append fits fun _ => ⟨.other, rfl⟩).imp id
      intro slot _ found
      have stands := PoolDraft.get?_toPool_iff_stands.1 found
      exact .long stands (not_stands_behind_wide stands rfl)

end Reservation

/-! ## Steps -/

namespace ClassDraft

/-- A step makes a reservation in the pool, or it leaves the pool as it is. -/
theorem apply_cases (draft : ClassDraft) (step : ClassStep) :
    (∃ reservation, step.reservation? = some reservation ∧
      draft.apply step = draft.reserve reservation.drafting) ∨
    step.reservation? = none ∧ (draft.apply step).1.pool = draft.pool ∧
      (draft.apply step).2 = none := by
  cases step with
  | reserveMethod ref => exact .inl ⟨.method ref, rfl, rfl⟩
  | reserveInterfaceMethod ref => exact .inl ⟨.interfaceMethod ref, rfl, rfl⟩
  | reserveLong value => exact .inl ⟨.long value, rfl, rfl⟩
  | access | version | superclass | implements | sourceFile | annotate | method =>
      exact .inr ⟨rfl, rfl, rfl⟩

theorem slots_cons (draft : ClassDraft) (step : ClassStep) (rest : List ClassStep) :
    (draft.applyAll (step :: rest)).2 =
      (draft.apply step).2.toList ++ ((draft.apply step).1.applyAll rest).2 :=
  rfl

/-- The slots that steps reserve are handed out for their reservations in order, and hold in the final
pool what they are reserved for. -/
theorem applyAll_held {final : PoolDraft} (fits : final.Fits) (draft : ClassDraft)
    (steps : List ClassStep) (within : (draft.applyAll steps).1.pool.Within final)
    (linked : draft.pool.Linked final) :
    List.Forall₂ (Reservation.HeldAt final.constants) (steps.filterMap ClassStep.reservation?)
      (draft.applyAll steps).2 := by
  induction steps generalizing draft with
  | nil => exact .nil
  | cons step rest ih =>
      have later := (applyAll_linked fits (draft.apply step).1 rest).1.trans within
      have linkedLater := (apply_linked fits draft step).2 later linked
      have tail := ih (draft.apply step).1 within linkedLater
      rw [slots_cons]
      rcases apply_cases draft step with ⟨reservation, made, reserved⟩ | ⟨none, _, noSlot⟩
      · rw [List.filterMap_cons_some made]
        rw [reserved] at later tail ⊢
        have held := ((reservation.ensures_drafting fits draft.pool).2 later trivial linked).2
        exact .cons held tail
      · rw [List.filterMap_cons_none none, noSlot]
        exact tail

/-- The reservations of steps with the slots that are handed out for them. -/
def reserved (draft : ClassDraft) (steps : List ClassStep) : List (Reservation × UInt16) :=
  (steps.filterMap ClassStep.reservation?).zip (draft.applyAll steps).2

theorem reserved_cons (draft : ClassDraft) (step : ClassStep) (rest : List ClassStep) :
    (∃ reservation, draft.apply step = draft.reserve reservation.drafting ∧
      draft.reserved (step :: rest) = (reservation, (reservation.drafting draft.pool).1) ::
        (draft.apply step).1.reserved rest) ∨
    draft.reserved (step :: rest) = (draft.apply step).1.reserved rest := by
  rcases apply_cases draft step with ⟨reservation, made, step_eq⟩ | ⟨none, _, noSlot⟩
  · left
    have pairs : draft.reserved (step :: rest) = (reservation, (reservation.drafting draft.pool).1) ::
        (draft.apply step).1.reserved rest := by
      rw [reserved, slots_cons, List.filterMap_cons_some made, step_eq]
      rfl
    exact ⟨reservation, step_eq, pairs⟩
  · right
    rw [reserved, slots_cons, List.filterMap_cons_none none, noSlot]
    rfl

/-- A number gets the first free slot, and the slot behind it is taken with it. -/
theorem drafting_long {reservation : Reservation} (long : reservation.symbol = .other)
    {pool : PoolDraft} (few : (reservation.drafting pool).2.nextSlot ≤ 65535) :
    (reservation.drafting pool).1.toNat = pool.nextSlot ∧
      pool.nextSlot < (reservation.drafting pool).2.nextSlot := by
  cases reservation with
  | method | interfaceMethod => cases long
  | long value =>
      have taken : pool.nextSlot < ((Reservation.long value).drafting pool).2.nextSlot := by
        simp [Reservation.drafting, Drafting.append, PoolDraft.nextSlot, PoolDraft.widths,
          Constant.width, Constant.isWide]
      exact ⟨toNat_ofNat_of_le (Nat.le_of_lt (Nat.lt_of_lt_of_le taken few)), taken⟩

/-- Numbers get slots behind all that were taken before, so no two of them share a slot. -/
theorem pairwise_reserved (draft : ClassDraft) (steps : List ClassStep)
    (few : (draft.applyAll steps).1.pool.nextSlot ≤ 65535) :
    (∀ pair ∈ draft.reserved steps, pair.1.symbol = .other → draft.pool.nextSlot ≤ pair.2.toNat) ∧
      (draft.reserved steps).Pairwise fun first second =>
        first.1.symbol = .other → second.1.symbol = .other → first.2 ≠ second.2 := by
  induction steps generalizing draft with
  | nil => exact ⟨fun _ member => absurd member List.not_mem_nil, .nil⟩
  | cons step rest ih =>
      rcases ih (draft.apply step).1 few with ⟨behind, differ⟩
      have fewNext : (draft.apply step).1.pool.nextSlot ≤ 65535 :=
        Nat.le_trans (PoolDraft.nextSlot_le_of_within (applyAll_keeps _ rest).1) few
      have grown := PoolDraft.nextSlot_le_of_within (apply_keeps draft step).1
      have passed : ∀ pair ∈ (draft.apply step).1.reserved rest, pair.1.symbol = .other →
          draft.pool.nextSlot ≤ pair.2.toNat :=
        fun pair member long => Nat.le_trans grown (behind pair member long)
      rcases reserved_cons draft step rest with ⟨reservation, step_eq, pairs⟩ | pairs
      · rw [pairs, List.forall_mem_cons, List.pairwise_cons]
        rw [step_eq] at fewNext
        refine ⟨⟨?_, passed⟩, ?_, differ⟩
        · intro long
          exact Nat.le_of_eq (drafting_long long fewNext).1.symm
        · intro pair member long alsoLong same
          have first := drafting_long long fewNext
          have later := behind pair member alsoLong
          rw [step_eq, ← same, first.1] at later
          exact absurd later (Nat.not_le_of_lt first.2)
      · rw [pairs]
        exact ⟨passed, differ⟩

/-! ## The class file -/

/-- A class file is aligned with the constants that its draft ends with. -/
theorem aligned_of_assemble {draft : ClassDraft} (fits : draft.finalPool.Fits) {unit : ClassUnit}
    (opened : ClassUnit.ofBytes draft.assemble = .ok unit) :
    Aligned draft.finalPool.constants unit := by
  have written : List.Forall₂ Constant.Written draft.finalPool.constants
      (draft.finalPool.constants.map Constant.encode) := by
    rw [List.forall₂_map_right_iff, List.forall₂_same]
    exact fun constant member => Constant.written_encode (fits.texts constant member)
  have file : draft.assemble = fileWithPool 0 draft.majorVersion draft.finalPool.constants
      (draft.finalPool.constants.map Constant.encode) (draft.encodeBody draft.pool).1 := by
    simp only [assemble, fileWithPool, finalPool, ← List.flatMap_def, List.append_assoc]
    rfl
  rw [file, ClassUnit.ofBytes_fileWithPool_eq_ok_iff written fits.slots] at opened
  rcases opened with ⟨_, sections, last, symbols, _, resolved, rfl⟩
  exact ClassUnit.aligned_toUnit resolved

/-- Steps leave their reservations in the pool that the class file is written with. -/
theorem ofSteps_held {kind : TypeKind} {name : String} {steps : List ClassStep}
    (fits : (ofSteps kind name steps).finalPool.Fits) :
    List.Forall₂ (Reservation.HeldAt (ofSteps kind name steps).finalPool.constants)
      (steps.filterMap ClassStep.reservation?) ((ofKind kind name).applyAll steps).2 := by
  apply applyAll_held fits (ofKind kind name) steps (within_finalPool _)
  intro constant member
  cases kind <;> cases member

end ClassDraft

/-- The slots that are reserved while a class is drafted keep what they are reserved for, and are shared
exactly by reservations for the same method. A class file of the draft lists them so, and lists no
method twice; and if all other parts of the draft keep to the format as well, the file opens. -/
theorem reserved_ofSteps (kind : TypeKind) (name : String) (steps : List ClassStep)
    (fits : (ClassDraft.ofSteps kind name steps).finalPool.Fits) :
    List.Forall₂ (Reservation.HeldAt (ClassDraft.ofSteps kind name steps).finalPool.constants)
      (steps.filterMap ClassStep.reservation?) ((ClassDraft.ofKind kind name).applyAll steps).2 ∧
    ((ClassDraft.ofKind kind name).reserved steps).Pairwise Reservation.Apart ∧
    (∀ unit, ClassUnit.ofBytes (ClassDraft.ofSteps kind name steps).assemble = .ok unit →
      List.Forall₂ (Reservation.ListedBy unit) (steps.filterMap ClassStep.reservation?)
        ((ClassDraft.ofKind kind name).applyAll steps).2 ∧
      ∀ slot other symbol, symbol ≠ .other → (slot, symbol) ∈ unit.symbolTable →
        (other, symbol) ∈ unit.symbolTable → slot = other) ∧
    ((ClassDraft.ofSteps kind name steps).dotted.Fits →
      ∃ unit, ClassUnit.ofBytes (ClassDraft.ofSteps kind name steps).assemble = .ok unit) := by
  have held := ClassDraft.ofSteps_held fits
  have interned := ClassDraft.interned_finalPool fits.slots
  have few := Nat.le_trans (PoolDraft.nextSlot_le_of_within (ClassDraft.within_finalPool _)) fits.slots
  refine ⟨held, ?_, ?_, ?_⟩
  · apply (ClassDraft.pairwise_reserved (ClassDraft.ofKind kind name) steps few).2.imp_of_mem
    rintro ⟨reservation, slot⟩ ⟨reservation', slot'⟩ member member' numbers
    have first := (List.forall₂_iff_zip.1 held).2 member
    have second := (List.forall₂_iff_zip.1 held).2 member'
    exact first.apart interned second numbers
  · intro unit opened
    have aligned := ClassDraft.aligned_of_assemble fits opened
    refine ⟨held.imp fun _ _ held => held.listedBy aligned, ?_⟩
    intro slot other symbol present listed also
    exact interned.means_unique present ((aligned.means _ _).1 listed).2
      ((aligned.means _ _).1 also).2
  · intro parts
    rcases ClassDraft.exists_ofBytes_assemble_ofSteps parts with ⟨unit, opened, _⟩
    exact ⟨unit, opened⟩

/-- Reservations for a method in both spellings of its class, for an interface method that is called the
same, for one that differs in its descriptor, and for one number twice, between other steps. -/
def reservingSteps : List ClassStep :=
  [.reserveMethod ⟨"c/D", "m", "()V"⟩, .reserveLong 5, .version 61,
    .reserveInterfaceMethod ⟨"c.D", "m", "()V"⟩,
    .method {
      name := "run", descriptor := "()V"
      code := some ⟨[.invoke .static ⟨"c.D", "m", "()V"⟩, CodeStep.returnVoid], true⟩ },
    .reserveMethod ⟨"c.D", "m", "()V"⟩, .reserveLong 5, .reserveMethod ⟨"c.D", "m", "()I"⟩]

theorem reserved_ofSteps_reservingSteps :
    (ClassDraft.ofSteps .classType "a.B" reservingSteps).finalPool.Fits ∧
      (ClassDraft.ofSteps .classType "a.B" reservingSteps).dotted.Fits ∧
      ((ClassDraft.ofKind .classType "a.B").applyAll reservingSteps).2 = [6, 7, 9, 6, 10, 14] ∧
      ((ClassDraft.ofKind .classType "a.B").reserved reservingSteps).Pairwise Reservation.Apart ∧
      ∃ unit, ClassUnit.ofBytes (ClassDraft.ofSteps .classType "a.B" reservingSteps).assemble =
          .ok unit ∧
        List.Forall₂ (Reservation.ListedBy unit) (reservingSteps.filterMap ClassStep.reservation?)
          [6, 7, 9, 6, 10, 14] ∧
        ∀ slot other symbol, symbol ≠ .other → (slot, symbol) ∈ unit.symbolTable →
          (other, symbol) ∈ unit.symbolTable → slot = other := by
  have fits : (ClassDraft.ofSteps .classType "a.B" reservingSteps).finalPool.Fits := by
    decide +kernel
  have parts : (ClassDraft.ofSteps .classType "a.B" reservingSteps).dotted.Fits := by
    decide +kernel
  have slots : ((ClassDraft.ofKind .classType "a.B").applyAll reservingSteps).2 =
      [6, 7, 9, 6, 10, 14] := by decide +kernel
  rcases reserved_ofSteps .classType "a.B" reservingSteps fits with ⟨_, apart, listed, opens⟩
  rcases opens parts with ⟨unit, opened⟩
  rcases listed unit opened with ⟨symbols, unique⟩
  rw [slots] at symbols
  exact ⟨fits, parts, slots, apart, unit, opened, symbols, unique⟩

end ApiCoverage.ClassFile
