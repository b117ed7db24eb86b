/-!
# Sums of counts

The sum of the counts that the members of a list have, with the facts that reports need of it: it
goes through lists member by member and splits where a list splits.
-/

namespace ApiCoverage

universe u

/-- The sum of the counts of the members of a list. -/
def sumBy {α : Type u} (count : α → Nat) (list : List α) : Nat :=
  list.foldr (fun member rest => count member + rest) 0

@[simp] theorem sumBy_nil {α : Type u} (count : α → Nat) : sumBy count [] = 0 :=
  rfl

@[simp] theorem sumBy_cons {α : Type u} (count : α → Nat) (head : α) (rest : List α) :
    sumBy count (head :: rest) = count head + sumBy count rest :=
  rfl

@[simp] theorem sumBy_append {α : Type u} (count : α → Nat) (first second : List α) :
    sumBy count (first ++ second) = sumBy count first + sumBy count second := by
  induction first with
  | nil => simp
  | cons head rest ih => simp [ih, Nat.add_assoc]

theorem sumBy_map {α β : Type u} (count : β → Nat) (change : α → β) (list : List α) :
    sumBy count (list.map change) = sumBy (fun member => count (change member)) list :=
  List.foldr_map

theorem sumBy_flatMap {α β : Type u} (count : β → Nat) (members : α → List β) (list : List α) :
    sumBy count (list.flatMap members) = sumBy (fun head => sumBy count (members head)) list := by
  induction list with
  | nil => rfl
  | cons head rest ih => rw [List.flatMap_cons, sumBy_append, ih, sumBy_cons]

theorem length_flatMap_eq_sumBy {α β : Type u} (members : α → List β) (list : List α) :
    (list.flatMap members).length = sumBy (fun head => (members head).length) list := by
  induction list with
  | nil => rfl
  | cons head rest ih => rw [List.flatMap_cons, List.length_append, ih, sumBy_cons]

theorem countP_flatMap_eq_sumBy {α β : Type u} (test : β → Bool) (members : α → List β)
    (list : List α) :
    (list.flatMap members).countP test = sumBy (fun head => (members head).countP test) list := by
  induction list with
  | nil => rfl
  | cons head rest ih => rw [List.flatMap_cons, List.countP_append, ih, sumBy_cons]

end ApiCoverage
