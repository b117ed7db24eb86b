import ApiCoverage.ClassFile.Pool
import ApiCoverage.Proofs.Outcome
import Mathlib.Data.List.Forall2

/-!
# Following the indexes of a pool

An index resolves when the constant in its slot is of the kind asked for and its own indexes
resolve. The pool as a whole resolves when every method reference does, and its symbols stand in
slot order.
-/

namespace ApiCoverage.ClassFile.Pool

open Outcome (map_eq_ok_iff bind_eq_ok_iff)

variable {pool : Pool}

/-! ## One index -/

theorem utf8_eq_ok_iff {slot : UInt16} {text : String} :
    pool.utf8 slot = .ok text ↔ pool.get? slot = some (.utf8 text) := by
  rw [utf8]
  split
  · next found => simp [found]
  · next absent =>
      constructor
      · intro found
        cases found
      · intro found
        exact absurd found (absent text)

theorem className_eq_ok_iff {slot : UInt16} {name : String} :
    pool.className slot = .ok name ↔
      ∃ index text, pool.get? slot = some (.classReference index) ∧
        pool.get? index = some (.utf8 text) ∧ name = dottedName text := by
  rw [className]
  split
  · next found => simp [found, map_eq_ok_iff, utf8_eq_ok_iff]
  · next absent =>
      constructor
      · intro found
        cases found
      · rintro ⟨index, _, found, _⟩
        exact absurd found (absent index)

theorem nameAndType_eq_ok_iff {slot : UInt16} {name descriptor : String} :
    pool.nameAndType slot = .ok (name, descriptor) ↔
      ∃ nameIndex descriptorIndex, pool.get? slot = some (.nameAndType nameIndex descriptorIndex) ∧
        pool.get? nameIndex = some (.utf8 name) ∧
        pool.get? descriptorIndex = some (.utf8 descriptor) := by
  rw [nameAndType]
  split
  · next found => simp [found, bind_eq_ok_iff, utf8_eq_ok_iff, pure, Except.pure]
  · next absent =>
      constructor
      · intro found
        cases found
      · rintro ⟨nameIndex, descriptorIndex, found, _⟩
        exact absurd found (absent nameIndex descriptorIndex)

theorem member_eq_ok_iff {owner member : UInt16} {ref : MemberRef} :
    pool.member owner member = .ok ref ↔
      pool.className owner = .ok ref.owner ∧
        pool.nameAndType member = .ok (ref.name, ref.descriptor) := by
  rcases ref with ⟨refOwner, name, descriptor⟩
  simp only [Pool.member, bind_eq_ok_iff, pure, Except.pure, Except.ok.injEq, MemberRef.mk.injEq,
    Prod.exists]
  constructor
  · rintro ⟨_, _, named, _, owned, rfl, rfl, rfl⟩
    exact ⟨owned, named⟩
  · rintro ⟨owned, named⟩
    exact ⟨_, _, named, _, owned, rfl, rfl, rfl⟩

/-! ## The whole pool -/

/-- Resolving gives one symbol for each slot, on top of those already there. -/
theorem symbolsOnto_eq_ok_iff {entries : List (Option Constant)} {done symbols : List Symbol} :
    pool.symbolsOnto done entries = .ok symbols ↔
      ∃ more, symbols = done.reverse ++ more ∧
        List.Forall₂ (fun entry symbol => pool.symbol entry = .ok symbol) entries more := by
  induction entries generalizing done with
  | nil => simp [symbolsOnto, eq_comm]
  | cons entry rest ih =>
      rw [symbolsOnto]
      cases resolved : pool.symbol entry with
      | error fault => simp [List.forall₂_cons_left_iff, resolved]
      | ok symbol =>
          simp only [ih, List.reverse_cons, List.append_assoc, List.singleton_append,
            List.forall₂_cons_left_iff, resolved, Except.ok.injEq]
          constructor
          · rintro ⟨more, rfl, members⟩
            exact ⟨symbol :: more, rfl, symbol, more, rfl, members, rfl⟩
          · rintro ⟨_, rfl, _, more, rfl, members, rfl⟩
            exact ⟨more, rfl, members⟩

/-- A pool resolves to the symbols that its slots resolve to, in slot order. -/
theorem symbols_eq_ok_iff {symbols : List Symbol} :
    pool.symbols = .ok symbols ↔
      List.Forall₂ (fun entry symbol => pool.symbol entry = .ok symbol) pool.slots.toList
        symbols := by
  simp [Pool.symbols, symbolsOnto_eq_ok_iff]

/-- A pool resolves exactly when each of its slots does. -/
theorem exists_symbols_iff :
    (∃ symbols, pool.symbols = .ok symbols) ↔
      ∀ entry ∈ pool.slots.toList, ∃ symbol, pool.symbol entry = .ok symbol := by
  simp only [symbols_eq_ok_iff]
  induction pool.slots.toList with
  | nil => simp
  | cons entry rest ih =>
      rw [List.forall_mem_cons, ← ih]
      constructor
      · rintro ⟨_, _ | ⟨resolved, members⟩⟩
        exact ⟨⟨_, resolved⟩, _, members⟩
      · rintro ⟨⟨symbol, resolved⟩, symbols, members⟩
        exact ⟨symbol :: symbols, .cons resolved members⟩

/-- The resolved symbols answer for each slot as the pool does. -/
theorem getElem?_eq_of_resolved {entries : List (Option Constant)} {symbols : List Symbol}
    (members : List.Forall₂ (fun entry symbol => pool.symbol entry = .ok symbol) entries symbols)
    (slot : Nat) :
    symbols[slot]? = (entries[slot]?).bind fun entry => (pool.symbol entry).toOption := by
  induction members generalizing slot with
  | nil => rfl
  | cons head _ ih =>
      cases slot with
      | zero => simp [head, Except.toOption]
      | succ slot => exact ih slot

end ApiCoverage.ClassFile.Pool
