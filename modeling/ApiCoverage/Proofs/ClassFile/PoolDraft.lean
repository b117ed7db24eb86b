import ApiCoverage.ClassFile.Assembly
import ApiCoverage.Proofs.ClassFile.Constant
import ApiCoverage.Proofs.ClassFile.Pool
import Mathlib.Tactic.MkIffOfInductiveProp

/-!
# The slots of a pool in the making

A pool draft stands for the pool that its bytes are read as: slot 0 and the second slots of wide
constants hold nothing, and every constant stands in the slot that was handed out for it. Drafting
only appends constants, so a slot keeps its constant in every pool that the draft grows into, as long
as slot numbers fit two bytes.
-/

namespace ApiCoverage.ClassFile

namespace Constant

/-- The slots that a constant takes up, the first of which holds it. -/
def slots (constant : Constant) : List (Option Constant) :=
  some constant :: if constant.isWide then [none] else []

theorem length_slots (constant : Constant) : constant.slots.length = constant.width := by
  cases wide : constant.isWide <;> simp [slots, width, wide]

end Constant

namespace PoolDraft

/-- The slots of a list of constants, slot 0 left out. -/
def slotsOf (constants : List Constant) : List (Option Constant) :=
  constants.flatMap Constant.slots

theorem length_slotsOf (constants : List Constant) :
    (slotsOf constants).length = widths constants := by
  induction constants with
  | nil => rfl
  | cons constant rest ih =>
      simp only [slotsOf, widths, List.flatMap_cons, List.length_append, sumBy_cons,
        Constant.length_slots] at ih ⊢
      rw [ih]

/-- The pool that a draft stands for. -/
def toPool (pool : PoolDraft) : Pool :=
  ⟨(none :: slotsOf pool.constants).toArray⟩

theorem mem_slots_toPool {pool : PoolDraft} {constant : Constant} :
    some constant ∈ pool.toPool.slots.toList ↔ constant ∈ pool.constants := by
  have held : ∀ other : Constant, some constant ∈ other.slots ↔ constant = other := by
    intro other
    cases wide : other.isWide <;> simp [Constant.slots, wide]
  simp [toPool, slotsOf, held]

/-- The format can hold the pool: its slots are counted, and its texts measured, in two bytes. -/
@[mk_iff]
structure Fits (pool : PoolDraft) : Prop where
  slots : pool.nextSlot ≤ 65535
  texts : ∀ constant ∈ pool.constants, constant.IsShort

instance : DecidablePred Fits := fun pool => decidable_of_iff' _ (fits_iff pool)

/-! ## Reading the pool -/

/-- The slots that are read come behind those already read. -/
theorem readSlots_eq {constants : List Constant} {pieces : List Bytes}
    (written : List.Forall₂ Constant.Written constants pieces) (done : Array (Option Constant)) :
    (Pool.readSlots done (widths constants)).Reads pieces.flatten
      (done ++ (slotsOf constants).toArray) := by
  induction written generalizing done with
  | nil =>
      intro offset rest
      simp [Pool.readSlots, widths, slotsOf]
  | @cons constant piece constants pieces head _ tail =>
      intro offset rest
      have head := head.reads done.size
      rw [List.flatten_cons, List.append_assoc]
      cases wide : constant.isWide with
      | false =>
          have count : widths (constant :: constants) = widths constants + 1 := by
            simp [widths, Constant.width, wide, Nat.add_comm]
          simp [count, Pool.readSlots, head offset, wide, tail _ _ _, slotsOf, Constant.slots,
            Nat.add_assoc]
      | true =>
          have count : widths (constant :: constants) = widths constants + 1 + 1 := by
            simp only [widths, sumBy_cons, Constant.width, wide, if_true]
            omega
          simp [count, Pool.readSlots, head offset, wide, tail _ _ _, slotsOf, Constant.slots,
            Nat.add_assoc]

/-- A number of slots and as many constants as fill them are read as the pool of these constants. -/
theorem reads_of_written {constants : List Constant} {pieces : List Bytes}
    (written : List.Forall₂ Constant.Written constants pieces)
    (few : 1 + widths constants ≤ 65535) :
    Pool.read.Reads (Drafting.count (1 + widths constants) ++ pieces.flatten)
      (toPool ⟨constants⟩) := by
  have count : (UInt16.ofNat (1 + widths constants)).toNat - 1 = widths constants := by
    rw [toNat_ofNat_of_le few, Nat.add_sub_cancel_left]
  have slots := readSlots_eq written #[none]
  rw [← count] at slots
  apply (Reader.reads_word .constantPool _).bind
  simpa [toPool] using slots.bind_pure Pool.mk

/-- The bytes of a draft are read as the pool that it stands for. -/
theorem reads_toPool {pool : PoolDraft} (fits : pool.Fits) :
    Pool.read.Reads (Drafting.count pool.nextSlot ++ pool.encode) pool.toPool := by
  have written : List.Forall₂ Constant.Written pool.constants
      (pool.constants.map Constant.encode) := by
    rw [List.forall₂_map_right_iff, List.forall₂_same]
    exact fun constant member => Constant.written_encode (fits.texts constant member)
  rw [encode, List.flatMap_def]
  exact reads_of_written written fits.slots

/-! ## Growing -/

/-- A pool has the constants of another in front. -/
def Within (pool final : PoolDraft) : Prop :=
  pool.constants <+: final.constants

theorem Within.refl (pool : PoolDraft) : pool.Within pool :=
  List.prefix_refl _

theorem Within.trans {first second third : PoolDraft} (front : first.Within second)
    (back : second.Within third) : first.Within third :=
  List.IsPrefix.trans front back

theorem within_append (pool : PoolDraft) (more : List Constant) :
    pool.Within ⟨pool.constants ++ more⟩ :=
  List.prefix_append _ _

/-- A constant stands in a slot. -/
def Holds (pool : PoolDraft) (slot : Nat) (constant : Constant) : Prop :=
  (none :: slotsOf pool.constants)[slot]? = some (some constant)

theorem Holds.of_within {pool final : PoolDraft} {slot : Nat} {constant : Constant}
    (holds : pool.Holds slot constant) (within : pool.Within final) :
    final.Holds slot constant := by
  rcases within with ⟨more, grown⟩
  have bound : slot < (none :: slotsOf pool.constants).length :=
    (List.getElem?_eq_some_iff.1 holds).1
  have slots : slotsOf final.constants = slotsOf pool.constants ++ slotsOf more := by
    rw [← grown, slotsOf, List.flatMap_append]
    rfl
  rw [Holds, slots, ← List.cons_append, List.getElem?_append_left bound]
  exact holds

theorem get?_toPool_eq_some_iff {pool : PoolDraft} {slot : UInt16} {constant : Constant} :
    pool.toPool.get? slot = some constant ↔ pool.Holds slot.toNat constant := by
  rw [Pool.get?, toPool, List.getElem?_toArray, Option.join_eq_some_iff, Holds]

/-- A slot number that the pool hands out leads back to its constant. -/
theorem Holds.get?_ofNat {pool : PoolDraft} {slot : Nat} {constant : Constant}
    (holds : pool.Holds slot constant) (fits : pool.Fits) :
    pool.toPool.get? (UInt16.ofNat slot) = some constant := by
  have bound : slot < pool.nextSlot := by
    have inside := (List.getElem?_eq_some_iff.1 holds).1
    rwa [List.length_cons, length_slotsOf, Nat.add_comm] at inside
  have same := toNat_ofNat_of_le (Nat.le_trans (Nat.le_of_lt bound) fits.slots)
  rw [get?_toPool_eq_some_iff, same]
  exact holds

/-- The slot that a search finds holds the constant, counted from the slot that it starts at. -/
theorem getElem?_of_slotOf? {constant : Constant} {start slot : Nat} {constants : List Constant}
    (found : slotOf? constant start constants = some slot) :
    ∃ index, slot = start + index ∧ (slotsOf constants)[index]? = some (some constant) := by
  induction constants generalizing start with
  | nil => simp [slotOf?] at found
  | cons other rest ih =>
      rw [slotOf?] at found
      split at found
      · next same =>
          refine ⟨0, (Option.some.inj found).symm, ?_⟩
          simp [slotsOf, Constant.slots, same]
      · rcases ih found with ⟨index, slot_eq, stands⟩
        refine ⟨other.width + index, by rw [slot_eq, Nat.add_assoc], ?_⟩
        rw [slotsOf, List.flatMap_cons, ← Constant.length_slots, List.getElem?_append_right
          (Nat.le_add_right _ _), Nat.add_sub_cancel_left]
        exact stands

theorem holds_of_slotOf? {pool : PoolDraft} {constant : Constant} {slot : Nat}
    (found : slotOf? constant 1 pool.constants = some slot) : pool.Holds slot constant := by
  rcases getElem?_of_slotOf? found with ⟨index, rfl, stands⟩
  rw [Holds, Nat.add_comm, List.getElem?_cons_succ]
  exact stands

/-- An appended constant stands in the first free slot. -/
theorem holds_nextSlot (pool : PoolDraft) (constant : Constant) :
    PoolDraft.Holds ⟨pool.constants ++ [constant]⟩ pool.nextSlot constant := by
  have free : pool.nextSlot = (slotsOf pool.constants).length + 1 := by
    rw [length_slotsOf, nextSlot, Nat.add_comm]
  rw [Holds, free, List.getElem?_cons_succ, slotsOf, List.flatMap_append]
  exact (List.getElem?_append_right (Nat.le_refl _)).trans (by simp [Constant.slots])

/-- A slot of a list of constants that holds a constant comes behind the slots of those before. -/
theorem exists_of_getElem?_slotsOf {constants : List Constant} {index : Nat} {constant : Constant}
    (stands : (slotsOf constants)[index]? = some (some constant)) :
    ∃ before after, constants = before ++ constant :: after ∧ index = widths before := by
  induction constants generalizing index with
  | nil => simp [slotsOf] at stands
  | cons other rest ih =>
      rw [slotsOf, List.flatMap_cons] at stands
      rcases Nat.lt_or_ge index other.slots.length with inside | beyond
      · rw [List.getElem?_append_left inside, Constant.slots] at stands
        cases index with
        | zero =>
            obtain rfl : other = constant := by simpa using stands
            exact ⟨[], rest, rfl, rfl⟩
        | succ index =>
            -- The second slot of a wide constant holds nothing.
            rw [List.getElem?_cons_succ] at stands
            have member := List.mem_of_getElem? stands
            split at member <;> simp at member
      · rw [List.getElem?_append_right beyond] at stands
        rcases ih stands with ⟨before, after, rfl, behind⟩
        refine ⟨other :: before, after, rfl, ?_⟩
        rw [widths, sumBy_cons, ← widths, ← behind, ← Constant.length_slots]
        omega

/-- A constant stands in the slot behind those that the constants before it take up. -/
theorem holds_iff {pool : PoolDraft} {slot : Nat} {constant : Constant} :
    pool.Holds slot constant ↔
      ∃ before after, pool.constants = before ++ constant :: after ∧ slot = 1 + widths before := by
  constructor
  · intro holds
    cases slot with
    | zero => simp [Holds] at holds
    | succ index =>
        rcases exists_of_getElem?_slotsOf holds with ⟨before, after, split, behind⟩
        exact ⟨before, after, split, by omega⟩
  · rintro ⟨before, after, split, rfl⟩
    exact (holds_nextSlot ⟨before⟩ constant).of_within ⟨after, by simp [split]⟩

end PoolDraft

end ApiCoverage.ClassFile
