/-!
# Finite maps in key order

A finite map is kept as the list of its entries with strictly increasing keys, and the order is
part of the type. A map is therefore determined by what it answers for each key, and a printer that
walks the entries needs no sorting.
-/

namespace ApiCoverage

universe u v

/-- A finite map whose entries stand in strictly increasing key order. -/
structure OrderedMap (κ : Type u) (α : Type v) [Ord κ] where
  /-- The entries in key order. -/
  entries : List (κ × α)
  /-- Every key is smaller than the keys after it. -/
  increasing : entries.Pairwise fun first second => compare first.1 second.1 = .lt

namespace OrderedMap

variable {κ : Type u} {α : Type v} [Ord κ]

/-- The map without entries. -/
def empty : OrderedMap κ α :=
  ⟨[], .nil⟩

instance : Inhabited (OrderedMap κ α) := ⟨empty⟩

instance : EmptyCollection (OrderedMap κ α) := ⟨empty⟩

/-- The value at a key of an increasing entry list. -/
def lookup (key : κ) : List (κ × α) → Option α
  | [] => none
  | (other, value) :: rest =>
      match compare key other with
      | .lt => none
      | .eq => some value
      | .gt => lookup key rest

/-- The entry list with the value at a key set. -/
def insertEntry (key : κ) (value : α) : List (κ × α) → List (κ × α)
  | [] => [(key, value)]
  | (other, old) :: rest =>
      match compare key other with
      | .lt => (key, value) :: (other, old) :: rest
      | .eq => (other, value) :: rest
      | .gt => (other, old) :: insertEntry key value rest

/-- The entry list with the value at a key, if it has one, replaced by its image. -/
def modifyEntry (key : κ) (change : α → α) : List (κ × α) → List (κ × α)
  | [] => []
  | (other, value) :: rest =>
      match compare key other with
      | .lt => (other, value) :: rest
      | .eq => (other, change value) :: rest
      | .gt => (other, value) :: modifyEntry key change rest

/-- Whatever holds of the old keys and of the new key holds of every key after an insertion. -/
theorem forall_key_insertEntry {holds : κ → Prop} {key : κ} {value : α} {list : List (κ × α)}
    (old : ∀ entry ∈ list, holds entry.1) (new : holds key) :
    ∀ entry ∈ insertEntry key value list, holds entry.1 := by
  induction list with
  | nil => simpa [insertEntry] using new
  | cons head rest ih =>
      obtain ⟨other, previous⟩ := head
      simp only [List.forall_mem_cons] at old
      unfold insertEntry
      split <;> simp only [List.forall_mem_cons]
      · exact ⟨new, old.1, old.2⟩
      · exact ⟨old.1, old.2⟩
      · exact ⟨old.1, ih old.2⟩

theorem increasing_insertEntry [Std.TransOrd κ] {key : κ} {value : α} {list : List (κ × α)}
    (sorted : list.Pairwise fun first second => compare first.1 second.1 = .lt) :
    (insertEntry key value list).Pairwise
      fun first second => compare first.1 second.1 = .lt := by
  induction list with
  | nil => simp [insertEntry]
  | cons head rest ih =>
      obtain ⟨other, previous⟩ := head
      obtain ⟨below, tail⟩ := List.pairwise_cons.1 sorted
      unfold insertEntry
      split
      · next smaller =>
          refine List.pairwise_cons.2 ⟨?_, sorted⟩
          intro entry member
          rcases List.mem_cons.1 member with rfl | later
          · exact smaller
          · exact Std.TransCmp.lt_trans smaller (below entry later)
      · exact List.pairwise_cons.2 ⟨below, tail⟩
      · next larger =>
          refine List.pairwise_cons.2 ⟨?_, ih tail⟩
          exact @forall_key_insertEntry κ α _ (fun later => compare other later = .lt) key value
            rest below (Std.OrientedCmp.lt_of_gt larger)

theorem map_fst_modifyEntry (key : κ) (change : α → α) (list : List (κ × α)) :
    (modifyEntry key change list).map Prod.fst = list.map Prod.fst := by
  induction list with
  | nil => rfl
  | cons head rest ih =>
      obtain ⟨other, value⟩ := head
      unfold modifyEntry
      split <;> simp [ih]

theorem increasing_modifyEntry {key : κ} {change : α → α} {list : List (κ × α)}
    (sorted : list.Pairwise fun first second => compare first.1 second.1 = .lt) :
    (modifyEntry key change list).Pairwise
      fun first second => compare first.1 second.1 = .lt := by
  have keys : (list.map Prod.fst).Pairwise fun first second => compare first second = .lt :=
    List.pairwise_map.2 sorted
  rw [← map_fst_modifyEntry key change] at keys
  exact List.pairwise_map.1 keys

/-- The value at a key. -/
def get? (map : OrderedMap κ α) (key : κ) : Option α :=
  lookup key map.entries

/-- Whether a key has a value. -/
def contains (map : OrderedMap κ α) (key : κ) : Bool :=
  (map.get? key).isSome

/-- The map with the value at a key set. -/
def insert [Std.TransOrd κ] (map : OrderedMap κ α) (key : κ) (value : α) : OrderedMap κ α :=
  ⟨insertEntry key value map.entries, increasing_insertEntry map.increasing⟩

/-- The map with a value at a key that had none; an existing value stays. -/
def insertIfNew [Std.TransOrd κ] (map : OrderedMap κ α) (key : κ) (value : α) : OrderedMap κ α :=
  if map.contains key then map else map.insert key value

/-- The map with the value at a key changed; a key without a value gets none. -/
def modify (map : OrderedMap κ α) (key : κ) (change : α → α) : OrderedMap κ α :=
  ⟨modifyEntry key change map.entries, increasing_modifyEntry map.increasing⟩

/-- The keys in order. -/
def keys (map : OrderedMap κ α) : List κ :=
  map.entries.map Prod.fst

/-- The values in key order. -/
def values (map : OrderedMap κ α) : List α :=
  map.entries.map Prod.snd

/-- The number of keys. -/
def size (map : OrderedMap κ α) : Nat :=
  map.entries.length

end OrderedMap

end ApiCoverage
