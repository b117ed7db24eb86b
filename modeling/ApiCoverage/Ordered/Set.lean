/-!
# Finite sets in order

A finite set is kept as the strictly increasing list of its elements, so two sets with the same
elements are equal and every walk visits the elements in order.
-/

namespace ApiCoverage

universe u

/-- A finite set whose elements stand in strictly increasing order. -/
structure OrderedSet (κ : Type u) [Ord κ] where
  /-- The elements in order. -/
  elements : List κ
  /-- Every element is smaller than the ones after it. -/
  increasing : elements.Pairwise fun first second => compare first second = .lt

namespace OrderedSet

variable {κ : Type u} [Ord κ]

/-- The set without elements. -/
def empty : OrderedSet κ :=
  ⟨[], .nil⟩

instance : Inhabited (OrderedSet κ) := ⟨empty⟩

instance : EmptyCollection (OrderedSet κ) := ⟨empty⟩

/-- Whether an element stands in an increasing list. -/
def occurs (element : κ) : List κ → Bool
  | [] => false
  | other :: rest =>
      match compare element other with
      | .lt => false
      | .eq => true
      | .gt => occurs element rest

/-- The increasing list with one more element. -/
def insertElement (element : κ) : List κ → List κ
  | [] => [element]
  | other :: rest =>
      match compare element other with
      | .lt => element :: other :: rest
      | .eq => other :: rest
      | .gt => other :: insertElement element rest

/-- Whatever holds of the old elements and of the new one holds of all after an insertion. -/
theorem forall_insertElement {holds : κ → Prop} {element : κ} {list : List κ}
    (old : ∀ other ∈ list, holds other) (new : holds element) :
    ∀ other ∈ insertElement element list, holds other := by
  induction list with
  | nil => simpa [insertElement] using new
  | cons head rest ih =>
      simp only [List.forall_mem_cons] at old
      unfold insertElement
      split <;> simp only [List.forall_mem_cons]
      · exact ⟨new, old.1, old.2⟩
      · exact ⟨old.1, old.2⟩
      · exact ⟨old.1, ih old.2⟩

theorem increasing_insertElement [Std.TransOrd κ] {element : κ} {list : List κ}
    (sorted : list.Pairwise fun first second => compare first second = .lt) :
    (insertElement element list).Pairwise fun first second => compare first second = .lt := by
  induction list with
  | nil => simp [insertElement]
  | cons head rest ih =>
      obtain ⟨below, tail⟩ := List.pairwise_cons.1 sorted
      unfold insertElement
      split
      · next smaller =>
          refine List.pairwise_cons.2 ⟨?_, sorted⟩
          intro other member
          rcases List.mem_cons.1 member with rfl | later
          · exact smaller
          · exact Std.TransCmp.lt_trans smaller (below other later)
      · exact sorted
      · next larger =>
          refine List.pairwise_cons.2 ⟨?_, ih tail⟩
          exact forall_insertElement below (Std.OrientedCmp.lt_of_gt larger)

/-- Whether an element is in the set. -/
def contains (set : OrderedSet κ) (element : κ) : Bool :=
  occurs element set.elements

/-- The set with one more element. -/
def insert [Std.TransOrd κ] (set : OrderedSet κ) (element : κ) : OrderedSet κ :=
  ⟨insertElement element set.elements, increasing_insertElement set.increasing⟩

/-- The elements of a list, each once and in order. -/
def ofList [Std.TransOrd κ] (list : List κ) : OrderedSet κ :=
  list.foldl insert empty

/-- The number of elements. -/
def size (set : OrderedSet κ) : Nat :=
  set.elements.length

/-- Whether the set has no elements. -/
def isEmpty (set : OrderedSet κ) : Bool :=
  set.elements.isEmpty

end OrderedSet

end ApiCoverage
