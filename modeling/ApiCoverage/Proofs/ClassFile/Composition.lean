import ApiCoverage.Proofs.ClassFile.Reading

/-!
# Readers made of steps

Readers are sequences and repetitions of a few primitive steps. A property of readers that the
primitive steps have, and that a sequence has as soon as its steps do, therefore holds of the larger
readers. The constant pool is read in this way; it never asks for its position.
-/

namespace ApiCoverage.ClassFile

namespace Reader

variable {α β : Type}

/-- A repetition is a sequence of its members. -/
theorem timesOnto_succ (reader : Reader α) (done : List α) (count : Nat) :
    timesOnto reader done (count + 1) =
      reader >>= fun value => timesOnto reader (value :: done) count := by
  funext cursor
  rw [bind_apply]
  rfl

/-- A property of readers that the primitive steps have, and that passes to sequences. -/
structure Composes (holds : ∀ {α : Type}, Reader α → Prop) : Prop where
  pure : ∀ {α : Type} (value : α), holds (pure value : Reader α)
  fail : ∀ {α : Type} (fault : Fault), holds (fail fault : Reader α)
  take : ∀ part count, holds (take part count)
  bind : ∀ {α β : Type} {reader : Reader α} {next : α → Reader β}, holds reader →
    (∀ value, holds (next value)) → holds (reader >>= next)

namespace Composes

variable {holds : ∀ {α : Type}, Reader α → Prop} (composes : Composes @holds)

include composes

theorem ofExcept (outcome : Except Fault α) : holds (ofExcept outcome) := by
  cases outcome with
  | error fault => exact composes.fail fault
  | ok value => exact composes.pure value

theorem byte (part : Part) : holds (byte part) :=
  composes.bind (composes.take part 1) fun _ => composes.pure _

theorem word (part : Part) : holds (word part) :=
  composes.bind (composes.take part 2) fun _ => composes.pure _

theorem doubleWord (part : Part) : holds (doubleWord part) :=
  composes.bind (composes.take part 4) fun _ => composes.pure _

theorem timesOnto {reader : Reader α} (member : holds reader) (done : List α) (count : Nat) :
    holds (timesOnto reader done count) := by
  induction count generalizing done with
  | zero => exact composes.pure done.reverse
  | succ count ih =>
      rw [timesOnto_succ]
      exact composes.bind member fun value => ih (value :: done)

theorem times {reader : Reader α} (member : holds reader) (count : Nat) :
    holds (times count reader) :=
  composes.timesOnto member [] count

end Composes

end Reader

/-! ## The constant pool -/

section Pool

open Reader

variable {holds : ∀ {α : Type}, Reader α → Prop} (composes : Composes @holds)

include composes

theorem Constant.holds_readBlock (part : Part) (size : Nat) (make : Bytes → Constant) :
    holds (readBlock part size make) :=
  composes.bind (composes.take part size) fun _ => composes.pure _

theorem Constant.holds_readPair (part : Part) (make : UInt16 → UInt16 → Constant) :
    holds (readPair part make) :=
  composes.bind (composes.word part) fun _ =>
    composes.bind (composes.word part) fun _ => composes.pure _

theorem Constant.holds_readText (slot : Nat) : holds (readText slot) := by
  refine composes.bind (composes.word _) fun _ => composes.bind (composes.take _ _) fun bytes => ?_
  cases Text.ModifiedUtf8.decode? bytes with
  | none => exact composes.fail _
  | some text => exact composes.pure _

theorem Constant.holds_readPayload (slot : Nat) (tag : UInt8) : holds (readPayload slot tag) := by
  unfold readPayload
  split
  case h_1 => exact holds_readText composes slot
  case h_8 | h_9 | h_10 | h_11 => exact holds_readPair composes _ _
  case h_18 => exact composes.fail _
  all_goals exact holds_readBlock composes _ _ _

theorem Constant.holds_read (slot : Nat) : holds (read slot) :=
  composes.bind (composes.byte _) fun tag => holds_readPayload composes slot tag

omit composes in
/-- Slots are read constant by constant. -/
theorem Pool.readSlots_succ (slots : Array (Option Constant)) (count : Nat) :
    readSlots slots (count + 1) =
      Constant.read slots.size >>= fun constant =>
        if constant.isWide then
          match count with
          | 0 => pure (slots.push (some constant))
          | fewer + 1 => readSlots ((slots.push (some constant)).push none) fewer
        else
          readSlots (slots.push (some constant)) count := by
  funext cursor
  simp only [bind_apply, readSlots]
  cases Constant.read slots.size cursor with
  | error fault => rfl
  | ok step =>
      rcases step with ⟨constant, later⟩
      cases wide : constant.isWide with
      | false => simp [wide]
      | true => cases count <;> simp [wide, Reader.pure_apply]

theorem Pool.holds_readSlots (slots : Array (Option Constant)) (count : Nat) :
    holds (readSlots slots count) := by
  induction count using Nat.strongRecOn generalizing slots with
  | ind count ih =>
      cases count with
      | zero => exact composes.pure slots
      | succ count =>
          rw [readSlots_succ]
          refine composes.bind (Constant.holds_read composes _) fun constant => ?_
          split
          · cases count with
            | zero => exact composes.pure _
            | succ fewer => exact ih fewer (by omega) _
          · exact ih count (by omega) _

theorem Pool.holds_read : holds Pool.read :=
  composes.bind (composes.word _) fun _ =>
    composes.bind (holds_readSlots composes _ _) fun _ => composes.pure _

end Pool

end ApiCoverage.ClassFile
