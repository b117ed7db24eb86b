import ApiCoverage.Ordered.Set
import ApiCoverage.Proofs.Ordered.Increasing

/-!
# Membership in a finite set

The walk that looks for an element stops early at a larger one. Because the elements increase, it
misses none, and an insertion adds exactly the new element. A set is determined by its elements.
-/

namespace ApiCoverage.OrderedSet

universe u

variable {κ : Type u} [Ord κ] [Std.LawfulEqOrd κ]

/-- The walk through an increasing list finds exactly its elements. -/
theorem occurs_iff_mem [Std.TransOrd κ] {element : κ} {list : List κ}
    (sorted : list.Pairwise fun first second => compare first second = .lt) :
    occurs element list = true ↔ element ∈ list := by
  induction list with
  | nil => simp [occurs]
  | cons other rest ih =>
      rcases List.pairwise_cons.1 sorted with ⟨below, tail⟩
      unfold occurs
      split
      · next smaller =>
          constructor
          · simp
          · intro member
            have least : compare element element = .lt := by
              rcases List.mem_cons.1 member with rfl | later
              · exact smaller
              · exact Std.TransCmp.lt_trans smaller (below element later)
            simp [Std.ReflCmp.compare_self] at least
      · next same =>
          have equal : element = other := Std.LawfulEqCmp.eq_of_compare same
          simp [equal]
      · next larger =>
          have differs : element ≠ other := by
            rintro rfl
            simp [Std.ReflCmp.compare_self] at larger
          rw [ih tail]
          simp [differs]

/-- An insertion adds exactly the new element. -/
theorem mem_insertElement {element other : κ} {list : List κ} :
    other ∈ insertElement element list ↔ other = element ∨ other ∈ list := by
  induction list with
  | nil => simp [insertElement]
  | cons head rest ih =>
      unfold insertElement
      split
      · simp
      · next same =>
          have equal : element = head := Std.LawfulEqCmp.eq_of_compare same
          simp [equal]
      · rw [List.mem_cons, ih, List.mem_cons]
        exact or_left_comm

variable [Std.TransOrd κ]

@[simp]
theorem contains_iff_mem {set : OrderedSet κ} {element : κ} :
    set.contains element = true ↔ element ∈ set.elements :=
  occurs_iff_mem set.increasing

@[simp]
theorem mem_insert {set : OrderedSet κ} {element other : κ} :
    other ∈ (set.insert element).elements ↔ other = element ∨ other ∈ set.elements :=
  mem_insertElement

/-- Several insertions add exactly the new elements. -/
theorem mem_foldl_insert {set : OrderedSet κ} {list : List κ} {element : κ} :
    element ∈ (list.foldl insert set).elements ↔ element ∈ set.elements ∨ element ∈ list := by
  induction list generalizing set with
  | nil => simp
  | cons head rest ih =>
      rw [List.foldl_cons, ih, mem_insert, List.mem_cons, or_assoc, or_left_comm]

@[simp]
theorem mem_ofList {list : List κ} {element : κ} :
    element ∈ (ofList list).elements ↔ element ∈ list := by
  rw [ofList, mem_foldl_insert]
  simp [empty]

omit [Std.LawfulEqOrd κ] in
/-- A set has each of its elements once. -/
theorem nodup_elements (set : OrderedSet κ) : set.elements.Nodup := by
  simpa using Ordered.nodup_map_of_increasing id set.increasing

omit [Std.LawfulEqOrd κ] in
/-- Sets with the same elements are equal. -/
theorem ext_mem {first second : OrderedSet κ}
    (same : ∀ element, element ∈ first.elements ↔ element ∈ second.elements) : first = second := by
  have elements : first.elements = second.elements :=
    Ordered.eq_of_mem_iff_of_increasing id first.increasing second.increasing same
  cases first
  cases second
  cases elements
  rfl

end ApiCoverage.OrderedSet
