import Mathlib.Data.List.Sort

/-!
# Lists in strictly increasing order

A list that increases strictly along some key holds no member twice and in no other order than this
one, so it is determined by its members. Sets and maps in order are equal as soon as they agree.
-/

namespace ApiCoverage.Ordered

universe u v

variable {α : Type u} {κ : Type v} [Ord κ] [Std.OrientedOrd κ]

/-- A list that increases along a key has no key twice. -/
theorem nodup_map_of_increasing (key : α → κ) {list : List α}
    (increasing : list.Pairwise fun left right => compare (key left) (key right) = .lt) :
    (list.map key).Nodup := by
  refine List.pairwise_map.2 (increasing.imp fun {left right} below same => ?_)
  simp [same, Std.ReflCmp.compare_self] at below

/-- Two lists that increase along the same key are equal if they have the same members. -/
theorem eq_of_mem_iff_of_increasing (key : α → κ) {first second : List α}
    (firstIncreasing : first.Pairwise fun left right => compare (key left) (key right) = .lt)
    (secondIncreasing : second.Pairwise fun left right => compare (key left) (key right) = .lt)
    (same : ∀ member, member ∈ first ↔ member ∈ second) : first = second := by
  have : Std.Irrefl fun left right => compare (key left) (key right) = .lt := by
    constructor
    intro member
    simp [Std.ReflCmp.compare_self]
  have : Std.Antisymm fun left right => compare (key left) (key right) = .lt := by
    constructor
    intro left right below above
    exact absurd above (Std.OrientedCmp.not_lt_of_lt below)
  exact firstIncreasing.eq_of_mem_iff secondIncreasing same

end ApiCoverage.Ordered
