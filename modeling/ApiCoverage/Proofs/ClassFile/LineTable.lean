import ApiCoverage.ClassFile.CodeBody

/-!
# Lines looked up in a table

A line table is searched by halving. Where it falls into a front of entries that start at or before an
offset and a back of entries that start behind it, the offset belongs to the last entry of the front,
or to the first entry of the back if the front is empty. A table that is in order is kept as it is.
-/

namespace ApiCoverage.ClassFile.CodeBody

/-- An offset belongs to the last of the entries that start at or before it, if there are any. -/
theorem entryFor_append {offset : Nat} {front back : List LineEntry}
    (before : ∀ entry ∈ front, entry.start.toNat ≤ offset)
    (behind : ∀ entry ∈ back, offset < entry.start.toNat) :
    entryFor offset (front ++ back).toArray = front.getLast?.or back.head? := by
  let test (entry : LineEntry) : Bool := entry.start.toNat ≤ offset
  have passes : ∀ entry ∈ front, test entry = true := by
    intro entry member
    exact decide_eq_true (before entry member)
  have fails : ∀ entry ∈ back, test entry = false := by
    intro entry member
    exact decide_eq_false (Nat.not_le.2 (behind entry member))
  have falling : (front ++ back).toArray.toList.Pairwise
      fun first second => test second = true → test first = true := by
    rw [List.toList_toArray, List.pairwise_append]
    refine ⟨?_, ?_, ?_⟩
    · exact List.pairwise_of_forall_mem_list fun first member _ _ _ => passes first member
    · refine List.pairwise_of_forall_mem_list fun _ _ second member passed => ?_
      rw [fails second member] at passed
      cases passed
    · exact fun first member _ _ _ => passes first member
  have stops : back.takeWhile test = [] := by
    cases back with
    | nil => rfl
    | cons entry rest =>
        rw [List.takeWhile_cons_of_neg]
        simp [fails entry List.mem_cons_self]
  have length_eq : frontLength test (front ++ back).toArray = front.length := by
    rw [frontLength_eq_length_takeWhile falling, List.toList_toArray,
      List.takeWhile_append_of_pos passes, stops, List.append_nil]
  change (front ++ back).toArray[frontLength test (front ++ back).toArray - 1]? = _
  rw [length_eq, List.getElem?_toArray]
  cases front with
  | nil => rw [List.nil_append, List.getLast?_nil, Option.none_or, List.head?_eq_getElem?]; rfl
  | cons entry rest =>
      rw [List.getElem?_append_left (by simp), ← List.getLast?_eq_getElem?, List.getLast?_cons,
        Option.some_or]

/-- A table whose entries are in order is kept as it is. -/
theorem ofTable_of_pairwise (code : Bytes) {entries : List LineEntry}
    (ordered : entries.Pairwise fun first second => first.start ≤ second.start) :
    ofTable code (some entries) = ⟨code, some entries.toArray⟩ := by
  rw [ofTable, Option.map_some, List.mergeSort_of_pairwise]
  exact ordered.imp fun le => decide_eq_true le

/-- Only a table without entries has none for an offset: the first one stands for every offset before
the table. -/
theorem entryFor_eq_none_iff {offset : Nat} {entries : Array LineEntry} :
    entryFor offset entries = none ↔ entries.size = 0 := by
  have bound := frontLength_le (fun entry : LineEntry => entry.start.toNat ≤ offset) entries
  rw [entryFor, Array.getElem?_eq_none_iff]
  omega

theorem lineFor_eq_none_iff {body : CodeBody} {offset : Nat} :
    body.lineFor offset = none ↔ ∀ entries ∈ body.lines, entries.size = 0 := by
  simp only [lineFor, Option.bind_eq_bind, Option.bind_eq_none_iff, Option.pure_def, reduceCtorEq,
    imp_false, ← Option.eq_none_iff_forall_ne_some, entryFor_eq_none_iff, Option.mem_def]

/-- Only a body without a line table has no first line. -/
theorem firstLine_eq_none_iff {body : CodeBody} :
    body.firstLine = none ↔ body.hasLineTable = false := by
  rw [firstLine, lineFor_eq_none_iff, hasLineTable]
  cases body.lines <;> simp

end ApiCoverage.ClassFile.CodeBody
