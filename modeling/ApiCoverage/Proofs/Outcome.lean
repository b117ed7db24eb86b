import Mathlib.Data.List.Forall2

/-!
# Outcomes of steps that can fail

What succeeds was computed from successes. These equivalences take a successful computation apart into
its steps, or put it together from them. A list of computations fails for its first member that fails.
-/

namespace ApiCoverage

universe u

/-- A member of a list stands behind members that all have a property. -/
def Behind {α : Type u} (holds : α → Prop) (list : List α) (member : α) : Prop :=
  ∃ before after, list = before ++ member :: after ∧ ∀ earlier ∈ before, holds earlier

theorem not_behind_nil {α : Type u} {holds : α → Prop} {member : α} : ¬ Behind holds [] member := by
  rintro ⟨before, after, split, _⟩
  cases before <;> cases split

theorem behind_cons_iff {α : Type u} {holds : α → Prop} {head member : α} {rest : List α} :
    Behind holds (head :: rest) member ↔ member = head ∨ holds head ∧ Behind holds rest member := by
  constructor
  · rintro ⟨before, after, split, passed⟩
    cases before with
    | nil =>
        cases split
        exact .inl rfl
    | cons first before =>
        cases split
        have ⟨held, others⟩ := List.forall_mem_cons.1 passed
        exact .inr ⟨held, before, after, rfl, others⟩
  · rintro (rfl | ⟨held, before, after, rfl, passed⟩)
    · exact ⟨[], rest, rfl, by simp⟩
    · exact ⟨head :: before, after, rfl, List.forall_mem_cons.2 ⟨held, passed⟩⟩

namespace Outcome

variable {ε α β : Type} {outcome : Except ε α}

theorem map_eq_ok_iff {change : α → β} {result : β} :
    outcome.map change = .ok result ↔ ∃ value, outcome = .ok value ∧ result = change value := by
  cases outcome <;> simp [Except.map, eq_comm]

theorem map_eq_error_iff {change : α → β} {fault : ε} :
    outcome.map change = .error fault ↔ outcome = .error fault := by
  cases outcome <;> simp [Except.map]

theorem ok_bind (value : α) (next : α → Except ε β) : (Except.ok value >>= next) = next value :=
  rfl

theorem bind_eq_ok_iff {next : α → Except ε β} {result : β} :
    outcome >>= next = .ok result ↔ ∃ value, outcome = .ok value ∧ next value = .ok result := by
  cases outcome <;> simp [bind, Except.bind]

theorem bind_eq_error_iff {next : α → Except ε β} {fault : ε} :
    outcome >>= next = .error fault ↔
      outcome = .error fault ∨ ∃ value, outcome = .ok value ∧ next value = .error fault := by
  cases outcome <;> simp [bind, Except.bind]

theorem mapError_bind {δ : Type} {change : ε → δ} {next : α → Except ε β} :
    (outcome >>= next).mapError change =
      outcome.mapError change >>= fun value => (next value).mapError change := by
  cases outcome <;> rfl

theorem toOption_eq_some_iff {value : α} : outcome.toOption = some value ↔ outcome = .ok value := by
  cases outcome <;> simp [Except.toOption]

theorem toOption_map (change : α → β) :
    (outcome.map change).toOption = outcome.toOption.map change := by
  cases outcome <;> rfl

theorem exists_of_isOk (succeeds : outcome.isOk = true) : ∃ value, outcome = .ok value := by
  cases outcome with
  | error fault => cases succeeds
  | ok value => exact ⟨value, rfl⟩

/-- Computations that all succeed succeed one by one. -/
theorem forall₂_of_mapM {compute : α → Option β} {list : List α} {values : List β}
    (succeeds : list.mapM compute = some values) :
    List.Forall₂ (fun item value => compute item = some value) list values := by
  induction list generalizing values with
  | nil =>
      cases succeeds
      exact .nil
  | cons item rest ih =>
      rw [List.mapM_cons] at succeeds
      rcases Option.bind_eq_some_iff.1 succeeds with ⟨value, first, tail⟩
      rcases Option.bind_eq_some_iff.1 tail with ⟨others, remaining, same⟩
      cases same
      exact .cons first (ih remaining)

/-- What is written member by member is read member by member. -/
theorem mapM_map_eq_some {γ : Type} {write : α → β} {read : β → Option γ} {value : α → γ}
    {members : List α} (inverse : ∀ member ∈ members, read (write member) = some (value member)) :
    (members.map write).mapM read = some (members.map value) := by
  induction members with
  | nil => rfl
  | cons member rest ih =>
      have others := ih fun later mem => inverse later (List.mem_cons_of_mem _ mem)
      simp [inverse member List.mem_cons_self, others]

/-- All members of a list can be computed, or one is the first that cannot. -/
theorem all_or_behind {γ : Type u} (compute : γ → Except ε β) (list : List γ) :
    (∀ item ∈ list, ∃ value, compute item = .ok value) ∨
      ∃ item fault, Behind (fun earlier => ∃ value, compute earlier = .ok value) list item ∧
        compute item = .error fault := by
  induction list with
  | nil => exact .inl (by simp)
  | cons first rest ih =>
      simp only [behind_cons_iff, List.forall_mem_cons]
      cases computed : compute first with
      | error fault => exact .inr ⟨first, fault, .inl rfl, computed⟩
      | ok value =>
          rcases ih with all | ⟨item, fault, behind, failed⟩
          · exact .inl ⟨⟨value, rfl⟩, all⟩
          · exact .inr ⟨item, fault, .inr ⟨⟨value, rfl⟩, behind⟩, failed⟩

end Outcome

end ApiCoverage
