import ApiCoverage.Ordered.Map
import ApiCoverage.Proofs.Ordered.Increasing

/-!
# What a finite map answers

The answers of a map after an operation, in terms of its answers before. The search for a key stops
early at a larger one; because the keys increase, it finds exactly the entries of the map, and the
answers determine the map.
-/

namespace ApiCoverage.OrderedMap

universe u v

variable {κ : Type u} {α : Type v} [Ord κ]

@[simp]
theorem get?_empty (key : κ) : (empty : OrderedMap κ α).get? key = none :=
  rfl

theorem contains_eq (map : OrderedMap κ α) (key : κ) :
    map.contains key = (map.get? key).isSome :=
  rfl

/-- A change of the value at a key shows at that key. -/
theorem lookup_modifyEntry_self {key : κ} {change : α → α} {list : List (κ × α)} :
    lookup key (modifyEntry key change list) = (lookup key list).map change := by
  induction list with
  | nil => rfl
  | cons head rest ih =>
      rcases head with ⟨other, value⟩
      cases order : compare key other with
      | lt => simp [modifyEntry, lookup, order]
      | eq => simp [modifyEntry, lookup, order]
      | gt => simpa [modifyEntry, lookup, order] using ih

/-- An entry at another key only tells whether the search may stop. -/
theorem lookup_cons_of_ne [Std.LawfulEqOrd κ] {key other : κ} {value : α} {list : List (κ × α)}
    (differs : other ≠ key) :
    lookup other ((key, value) :: list) =
      if compare other key = .lt then none else lookup other list := by
  cases order : compare other key with
  | lt => simp [lookup, order]
  | eq => exact absurd (Std.LawfulEqCmp.eq_of_compare order) differs
  | gt => simp [lookup, order]

/-- A change of the value at a key leaves the answers for the other keys. -/
theorem lookup_modifyEntry_of_ne [Std.LawfulEqOrd κ] {key other : κ} {change : α → α}
    {list : List (κ × α)} (differs : other ≠ key) :
    lookup other (modifyEntry key change list) = lookup other list := by
  induction list with
  | nil => rfl
  | cons head rest ih =>
      rcases head with ⟨present, held⟩
      unfold modifyEntry
      split
      · rfl
      · next same =>
          have equal : key = present := Std.LawfulEqCmp.eq_of_compare same
          subst equal
          rw [lookup_cons_of_ne differs, lookup_cons_of_ne differs]
      · cases order : compare other present with
        | lt => simp [lookup, order]
        | eq => simp [lookup, order]
        | gt => simpa [lookup, order] using ih

@[simp]
theorem get?_modify_self {map : OrderedMap κ α} {key : κ} {change : α → α} :
    (map.modify key change).get? key = (map.get? key).map change :=
  lookup_modifyEntry_self

theorem get?_modify_of_ne [Std.LawfulEqOrd κ] {map : OrderedMap κ α} {key other : κ}
    {change : α → α} (differs : other ≠ key) :
    (map.modify key change).get? other = map.get? other :=
  lookup_modifyEntry_of_ne differs

/-- Maps with the same entries are equal. -/
theorem ext_entries {first second : OrderedMap κ α} (same : first.entries = second.entries) :
    first = second := by
  cases first
  cases second
  cases same
  rfl

variable [Std.TransOrd κ]

/-- A key is found after its insertion. -/
theorem lookup_insertEntry_self {key : κ} {value : α} {list : List (κ × α)} :
    lookup key (insertEntry key value list) = some value := by
  induction list with
  | nil => simp [insertEntry, lookup, Std.ReflCmp.compare_self]
  | cons head rest ih =>
      unfold insertEntry
      split
      · simp [lookup, Std.ReflCmp.compare_self]
      · next same => simp [lookup, same]
      · next larger => simpa [lookup, larger] using ih

@[simp]
theorem get?_insert_self {map : OrderedMap κ α} {key : κ} {value : α} :
    (map.insert key value).get? key = some value :=
  lookup_insertEntry_self

/-- An insertion of a new key keeps the value of one that is there. -/
@[simp]
theorem get?_insertIfNew_self {map : OrderedMap κ α} {key : κ} {value : α} :
    (map.insertIfNew key value).get? key = some ((map.get? key).getD value) := by
  unfold insertIfNew
  rw [contains_eq]
  cases held : map.get? key with
  | none => simp
  | some old => simp [held]

/-- A key above all others is inserted at the end. -/
theorem insertEntry_of_above {key : κ} {value : α} {list : List (κ × α)}
    (above : ∀ entry ∈ list, compare entry.1 key = .lt) :
    insertEntry key value list = list ++ [(key, value)] := by
  induction list with
  | nil => rfl
  | cons head rest ih =>
      have larger : compare key head.1 = .gt :=
        Std.OrientedCmp.gt_of_lt (above head List.mem_cons_self)
      have later := ih fun entry member => above entry (List.mem_cons_of_mem _ member)
      simp [insertEntry, larger, later]

theorem entries_foldl_insert {map : OrderedMap κ α} {list : List (κ × α)}
    (sorted : (map.entries ++ list).Pairwise fun first second => compare first.1 second.1 = .lt) :
    (list.foldl (fun grown entry => grown.insert entry.1 entry.2) map).entries =
      map.entries ++ list := by
  induction list generalizing map with
  | nil => simp
  | cons head rest ih =>
      have above : ∀ entry ∈ map.entries, compare entry.1 head.1 = .lt := fun entry member =>
        (List.pairwise_append.1 sorted).2.2 entry member head List.mem_cons_self
      have grown : (map.insert head.1 head.2).entries = map.entries ++ [head] :=
        insertEntry_of_above above
      rw [List.foldl_cons, ih (by simpa [grown] using sorted), grown, List.append_assoc]
      rfl

/-- A map is rebuilt from its entries. -/
theorem foldl_insert_entries (map : OrderedMap κ α) :
    map.entries.foldl (fun grown entry => grown.insert entry.1 entry.2) empty = map :=
  ext_entries (entries_foldl_insert map.increasing)

variable [Std.LawfulEqOrd κ]

/-- The search in an increasing entry list finds exactly its entries. -/
theorem lookup_eq_some_iff {key : κ} {value : α} {list : List (κ × α)}
    (sorted : list.Pairwise fun first second => compare first.1 second.1 = .lt) :
    lookup key list = some value ↔ (key, value) ∈ list := by
  induction list with
  | nil => simp [lookup]
  | cons head rest ih =>
      rcases head with ⟨other, held⟩
      rcases List.pairwise_cons.1 sorted with ⟨below, tail⟩
      unfold lookup
      split
      · next smaller =>
          constructor
          · simp
          · intro member
            have least : compare key key = .lt := by
              rcases List.mem_cons.1 member with same | later
              · cases same
                exact smaller
              · exact Std.TransCmp.lt_trans smaller (below _ later)
            simp [Std.ReflCmp.compare_self] at least
      · next same =>
          have equal : key = other := Std.LawfulEqCmp.eq_of_compare same
          subst equal
          have absent : (key, value) ∉ rest := by
            intro member
            have least := below _ member
            simp [Std.ReflCmp.compare_self] at least
          simp [absent, eq_comm]
      · next larger =>
          have differs : key ≠ other := by
            rintro rfl
            simp [Std.ReflCmp.compare_self] at larger
          rw [ih tail]
          simp [differs]

/-- An insertion leaves the answers for the other keys. -/
theorem lookup_insertEntry_of_ne {key other : κ} {value : α} {list : List (κ × α)}
    (differs : other ≠ key) :
    lookup other (insertEntry key value list) = lookup other list := by
  induction list with
  | nil =>
      rw [insertEntry, lookup_cons_of_ne differs]
      exact ite_self none
  | cons head rest ih =>
      rcases head with ⟨present, held⟩
      unfold insertEntry
      split
      · next smaller =>
          rw [lookup_cons_of_ne differs]
          split
          · next before =>
              have below : compare other present = .lt := Std.TransCmp.lt_trans before smaller
              simp [lookup, below]
          · rfl
      · next same =>
          have equal : key = present := Std.LawfulEqCmp.eq_of_compare same
          subst equal
          rw [lookup_cons_of_ne differs, lookup_cons_of_ne differs]
      · cases order : compare other present with
        | lt => simp [lookup, order]
        | eq => simp [lookup, order]
        | gt => simpa [lookup, order] using ih

/-- The answers of a map are its entries. -/
theorem get?_eq_some_iff {map : OrderedMap κ α} {key : κ} {value : α} :
    map.get? key = some value ↔ (key, value) ∈ map.entries :=
  lookup_eq_some_iff map.increasing

theorem get?_insert_of_ne {map : OrderedMap κ α} {key other : κ} {value : α}
    (differs : other ≠ key) : (map.insert key value).get? other = map.get? other :=
  lookup_insertEntry_of_ne differs

theorem get?_insertIfNew_of_ne {map : OrderedMap κ α} {key other : κ} {value : α}
    (differs : other ≠ key) : (map.insertIfNew key value).get? other = map.get? other := by
  unfold insertIfNew
  split
  · rfl
  · exact get?_insert_of_ne differs

/-- Maps with the same answers are equal. -/
theorem ext_get? {first second : OrderedMap κ α}
    (same : ∀ key, first.get? key = second.get? key) : first = second := by
  apply ext_entries
  apply Ordered.eq_of_mem_iff_of_increasing Prod.fst first.increasing second.increasing
  rintro ⟨key, value⟩
  rw [← get?_eq_some_iff, ← get?_eq_some_iff, same]

end ApiCoverage.OrderedMap
