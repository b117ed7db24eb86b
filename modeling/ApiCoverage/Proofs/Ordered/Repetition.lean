import ApiCoverage.Proofs.Ordered.Set
import Mathlib.Data.List.Induction
import Mathlib.Data.List.Perm.Basic

/-!
# Leaving out repetitions

What is left of a list when repetitions are left out is described by three facts: it has the members of
the list, it has each of them once, and they stand in the order in which the list names them first. One
more member of the list is kept exactly if it has not been seen, and the members that have been seen are
those that have been kept; this is the step, and the three facts are what it preserves.
-/

namespace ApiCoverage

universe u

variable {α : Type u} [BEq α] [LawfulBEq α] {all kept : List α} {item : α}

/-- A list keeps each member of another once, in the order in which the members first occur there. -/
structure FirstOccurrences (all kept : List α) : Prop where
  mem_iff : ∀ item, item ∈ kept ↔ item ∈ all
  once : kept.Nodup
  inOrder : kept.Pairwise fun first second => all.idxOf first < all.idxOf second

namespace FirstOccurrences

omit [LawfulBEq α] in
theorem nil : FirstOccurrences ([] : List α) [] :=
  ⟨fun _ => Iff.rfl, .nil, .nil⟩

/-- What is added at the end of a list does not move its members. -/
theorem inOrder_append (firsts : FirstOccurrences all kept) (added : List α) :
    kept.Pairwise fun first second => (all ++ added).idxOf first < (all ++ added).idxOf second := by
  refine firsts.inOrder.imp_of_mem fun {first second} firstKept secondKept before => ?_
  rw [List.idxOf_append_of_mem ((firsts.mem_iff first).1 firstKept),
    List.idxOf_append_of_mem ((firsts.mem_iff second).1 secondKept)]
  exact before

/-- A repeated member is left out. -/
theorem skip (firsts : FirstOccurrences all kept) (seen : item ∈ all) :
    FirstOccurrences (all ++ [item]) kept := by
  refine ⟨fun other => ?_, firsts.once, firsts.inOrder_append [item]⟩
  rw [firsts.mem_iff, List.mem_append, List.mem_singleton]
  exact ⟨.inl, fun member => member.elim id fun same => same ▸ seen⟩

/-- A new member is kept behind the others. -/
theorem keep (firsts : FirstOccurrences all kept) (unseen : item ∉ all) :
    FirstOccurrences (all ++ [item]) (kept ++ [item]) := by
  have apart : item ∉ kept := fun member => unseen ((firsts.mem_iff item).1 member)
  refine ⟨fun other => ?_, ?_, ?_⟩
  · rw [List.mem_append, List.mem_append, firsts.mem_iff]
  · exact List.nodup_append_comm.1 (List.nodup_cons.2 ⟨apart, firsts.once⟩)
  · refine List.pairwise_append.2 ⟨firsts.inOrder_append [item], List.pairwise_singleton _ _, ?_⟩
    intro first firstKept second new
    have member := (firsts.mem_iff first).1 firstKept
    rw [List.mem_singleton.1 new, List.idxOf_append_of_mem member,
      List.idxOf_append_of_notMem unseen]
    exact Nat.lt_add_right _ (List.idxOf_lt_length_of_mem member)

omit [LawfulBEq α] in
/-- The three facts leave no choice. -/
theorem unique {other : List α} (firsts : FirstOccurrences all kept)
    (others : FirstOccurrences all other) : kept = other :=
  firsts.inOrder.eq_of_mem_iff others.inOrder fun item =>
    (firsts.mem_iff item).trans (others.mem_iff item).symm

end FirstOccurrences

/-- One more member is kept exactly if it stands nowhere in front. -/
theorem eraseDups_concat (all : List α) (item : α) :
    (all ++ [item]).eraseDups = if item ∈ all then all.eraseDups else all.eraseDups ++ [item] := by
  rw [List.eraseDups_append]
  by_cases seen : item ∈ all
  · simp [List.removeAll, seen]
  · simp [List.removeAll, seen, List.eraseDups_cons]

theorem firstOccurrences_eraseDups (all : List α) : FirstOccurrences all all.eraseDups := by
  induction all using List.reverseRecOn with
  | nil => exact .nil
  | append_singleton all item ih =>
      rw [eraseDups_concat]
      split
      · next seen => exact ih.skip seen
      · next unseen => exact ih.keep unseen

namespace OrderedSet

variable {κ : Type u} [Ord κ] [Std.LawfulEqOrd κ] [Std.TransOrd κ]

/-- A set has as many elements as are left of a list of them without repetitions. -/
theorem size_ofList [BEq κ] [LawfulBEq κ] (list : List κ) :
    (ofList list).size = list.eraseDups.length := by
  have firsts := firstOccurrences_eraseDups list
  have same : (ofList list).elements.Perm list.eraseDups := by
    rw [List.perm_ext_iff_of_nodup (ofList list).nodup_elements firsts.once]
    exact fun element => mem_ofList.trans (firsts.mem_iff element).symm
  exact same.length_eq

end OrderedSet

end ApiCoverage
