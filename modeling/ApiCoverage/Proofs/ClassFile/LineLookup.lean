import ApiCoverage.Proofs.ClassFile.LineTable
import Mathlib.Data.List.TakeWhile

/-!
# Lines looked up in a table in any order

The entries of a line table may stand in any order, and several of them may start at the same offset.
Which of them a code offset belongs to can be said of the table as it is given: the last of the entries
that start as late as an entry can without starting behind the offset, and if all of them start behind
it, the first of those that start earliest. A lookup finds this entry, because sorting keeps entries
with the same start in the order in which they are given.
-/

namespace ApiCoverage.ClassFile

/-- The entry of a table that an offset belongs to, by the place of the entry in the table. -/
inductive LineEntry.Governs (offset : Nat) (entries : List LineEntry) (entry : LineEntry) : Prop where
  /-- Of the entries that start at or before the offset, the one with the largest start, and of several
  with that start the last. -/
  | reached {before after : List LineEntry} (split : entries = before ++ entry :: after)
      (reached : entry.start.toNat ≤ offset)
      (largest : ∀ other ∈ before, other.start.toNat ≤ offset → other.start ≤ entry.start)
      (last : ∀ other ∈ after, other.start.toNat ≤ offset → other.start < entry.start)
  /-- Where every entry starts behind the offset, the one with the smallest start, and of several with
  that start the first. -/
  | ahead {before after : List LineEntry} (split : entries = before ++ entry :: after)
      (ahead : ∀ other ∈ entries, offset < other.start.toNat)
      (first : ∀ other ∈ before, entry.start < other.start)
      (smallest : ∀ other ∈ after, entry.start ≤ other.start)

/-! ## Places in a list -/

/-- Of two places in a list, one is before the other unless they are the same. -/
theorem eq_or_mem_of_split {α : Type} {list before after before' after' : List α} {item item' : α}
    (split : list = before ++ item :: after) (split' : list = before' ++ item' :: after') :
    item = item' ∨ item' ∈ after ∧ item ∈ before' ∨ item ∈ after' ∧ item' ∈ before := by
  rcases List.append_eq_append_iff.1 (split.symm.trans split') with
    ⟨between, rfl, tail⟩ | ⟨between, rfl, tail⟩
  · cases between with
    | nil => exact .inl (List.cons.inj tail).1
    | cons first between =>
        obtain ⟨rfl, rfl⟩ := List.cons.inj tail
        exact .inr (.inl ⟨by simp, by simp⟩)
  · cases between with
    | nil => exact .inl (List.cons.inj tail).1.symm
    | cons first between =>
        obtain ⟨rfl, rfl⟩ := List.cons.inj tail
        exact .inr (.inr ⟨by simp, by simp⟩)

/-- The last item of a kind is followed by none of its kind. -/
theorem exists_split_of_getLast?_filter {α : Type} {list : List α} {kind : α → Bool} {item : α}
    (last : (list.filter kind).getLast? = some item) :
    ∃ before after, list = before ++ item :: after ∧ ∀ other ∈ after, ¬kind other := by
  rcases List.getLast?_eq_some_iff.1 last with ⟨_, filtered⟩
  rcases List.filter_eq_append_iff.1 filtered with ⟨front, back, rfl, _, rest⟩
  rcases List.filter_eq_cons_iff.1 rest with ⟨between, after, rfl, _, _, none⟩
  exact ⟨front ++ between, after, by simp, List.filter_eq_nil_iff.1 none⟩

/-- The first item of a kind comes behind none of its kind. -/
theorem exists_split_of_head?_filter {α : Type} {list : List α} {kind : α → Bool} {item : α}
    (first : (list.filter kind).head? = some item) :
    ∃ before after, list = before ++ item :: after ∧ ∀ other ∈ before, ¬kind other := by
  rcases List.head?_eq_some_iff.1 first with ⟨_, filtered⟩
  rcases List.filter_eq_cons_iff.1 filtered with ⟨before, after, rfl, none, _, _⟩
  exact ⟨before, after, rfl, none⟩

/-- Sorting keeps items that are tied with one another in the order in which they are given. -/
theorem filter_mergeSort {α : Type} {le : α → α → Bool} {kind : α → Bool}
    (trans : ∀ first second third, le first second → le second third → le first third)
    (total : ∀ first second, le first second || le second first)
    (tied : ∀ first second, kind first → kind second → le first second) (list : List α) :
    (list.mergeSort le).filter kind = list.filter kind := by
  have ordered : (list.filter kind).Pairwise fun first second => le first second := by
    refine List.pairwise_of_forall_mem_list fun first inside second also => ?_
    exact tied first second (List.mem_filter.1 inside).2 (List.mem_filter.1 also).2
  have kept : (list.filter kind).Sublist ((list.mergeSort le).filter kind) := by
    have sublist := (List.sublist_mergeSort trans total ordered List.filter_sublist).filter kind
    simpa only [List.filter_filter, Bool.and_self] using sublist
  exact (kept.eq_of_length ((List.mergeSort_perm list le).filter kind).length_eq.symm).symm

/-! ## The entry of an offset -/

namespace LineEntry.Governs

variable {offset : Nat} {entries : List LineEntry} {first second : LineEntry}

/-- An offset belongs to one entry only. -/
theorem unique (governs : first.Governs offset entries) (also : second.Governs offset entries) :
    first = second := by
  cases governs with
  | reached split reached largest last =>
      cases also with
      | reached split' reached' largest' last' =>
          rcases eq_or_mem_of_split split split' with same | ⟨behind, front⟩ | ⟨behind, front⟩
          · exact same
          · exact absurd (last second behind reached') (UInt16.not_lt.2 (largest' first front reached))
          · exact absurd (last' first behind reached) (UInt16.not_lt.2 (largest second front reached'))
      | ahead split' ahead' first' smallest' =>
          exact absurd (ahead' first (split ▸ by simp)) (Nat.not_lt.2 reached)
  | ahead split ahead earliest smallest =>
      cases also with
      | reached split' reached' largest' last' =>
          exact absurd (ahead second (split' ▸ by simp)) (Nat.not_lt.2 reached')
      | ahead split' ahead' earliest' smallest' =>
          rcases eq_or_mem_of_split split split' with same | ⟨behind, front⟩ | ⟨behind, front⟩
          · exact same
          · exact absurd (earliest' first front) (UInt16.not_lt.2 (smallest second behind))
          · exact absurd (earliest second front) (UInt16.not_lt.2 (smallest' first behind))

end LineEntry.Governs

namespace CodeBody

variable {offset : Nat} {entries : List LineEntry} {entry : LineEntry}

/-- The entries of a table in the order in which they are searched. -/
def sortedByStart (entries : List LineEntry) : List LineEntry :=
  entries.mergeSort fun first second => first.start ≤ second.start

theorem mem_sortedByStart : entry ∈ sortedByStart entries ↔ entry ∈ entries :=
  List.mem_mergeSort

theorem le_trans_start (first second third : LineEntry)
    (before : decide (first.start ≤ second.start) = true)
    (behind : decide (second.start ≤ third.start) = true) :
    decide (first.start ≤ third.start) = true :=
  decide_eq_true (UInt16.le_trans (of_decide_eq_true before) (of_decide_eq_true behind))

theorem le_total_start (first second : LineEntry) :
    (decide (first.start ≤ second.start) || decide (second.start ≤ first.start)) = true := by
  rw [← Bool.decide_or]
  exact decide_eq_true (UInt16.le_total _ _)

theorem pairwise_sortedByStart (entries : List LineEntry) :
    (sortedByStart entries).Pairwise fun first second => first.start ≤ second.start :=
  (List.pairwise_mergeSort le_trans_start le_total_start entries).imp of_decide_eq_true

/-- Entries with the same start are searched in the order in which they are given. -/
theorem filter_sortedByStart (start : UInt16) (entries : List LineEntry) :
    (sortedByStart entries).filter (·.start == start) = entries.filter (·.start == start) := by
  apply filter_mergeSort le_trans_start le_total_start
  intro first second here also
  rw [eq_of_beq here, eq_of_beq also]
  exact decide_eq_true UInt16.le_rfl

/-- A sorted table falls into the entries that start at or before an offset and those behind it. -/
theorem exists_sortedByStart_eq (offset : Nat) (entries : List LineEntry) :
    ∃ front back, sortedByStart entries = front ++ back ∧
      (∀ entry ∈ front, entry.start.toNat ≤ offset) ∧ ∀ entry ∈ back, offset < entry.start.toNat := by
  let test (entry : LineEntry) : Bool := entry.start.toNat ≤ offset
  refine ⟨(sortedByStart entries).takeWhile test, (sortedByStart entries).dropWhile test,
    List.takeWhile_append_dropWhile.symm, ?_, ?_⟩
  · intro entry member
    have passes : test entry = true := List.mem_takeWhile_imp member
    exact of_decide_eq_true passes
  · have ordered := (pairwise_sortedByStart entries).sublist (List.dropWhile_sublist test)
    have fails := List.head?_dropWhile_not test (sortedByStart entries)
    cases rest : (sortedByStart entries).dropWhile test with
    | nil => simp
    | cons head tail =>
        rw [rest, List.pairwise_cons] at ordered
        have headBehind : offset < head.start.toNat := by
          simpa [rest, test] using fails
        rw [List.forall_mem_cons]
        refine ⟨headBehind, ?_⟩
        intro entry member
        exact Nat.lt_of_lt_of_le headBehind (UInt16.le_iff_toNat_le.1 (ordered.1 entry member))

/-- The last entry that is reached in the sorted table. -/
theorem governs_of_reached {earlier back : List LineEntry}
    (sorted : sortedByStart entries = earlier ++ entry :: back)
    (reached : entry.start.toNat ≤ offset) (behind : ∀ other ∈ back, offset < other.start.toNat) :
    entry.Governs offset entries := by
  have ordered := pairwise_sortedByStart entries
  rw [sorted, List.pairwise_append] at ordered
  have largest : ∀ other ∈ entries, other.start.toNat ≤ offset → other.start ≤ entry.start := by
    intro other member inside
    rw [← mem_sortedByStart, sorted, List.mem_append, List.mem_cons] at member
    rcases member with before | rfl | after
    · exact ordered.2.2 other before entry List.mem_cons_self
    · exact UInt16.le_rfl
    · exact absurd (behind other after) (Nat.not_lt.2 inside)
  -- No entry behind the offset has the start of this one, so it is the last with this start.
  have none : back.filter (·.start == entry.start) = [] := by
    rw [List.filter_eq_nil_iff]
    intro other member same
    have later := behind other member
    rw [eq_of_beq same] at later
    exact Nat.not_lt.2 reached later
  have last : (entries.filter (·.start == entry.start)).getLast? = some entry := by
    rw [← filter_sortedByStart, sorted, List.filter_append, List.filter_cons, none]
    simp
  rcases exists_split_of_getLast?_filter last with ⟨front, rest, split, untied⟩
  refine .reached split reached (fun other member => largest other (split ▸ by simp [member])) ?_
  intro other member inside
  have le := largest other (split ▸ by simp [member]) inside
  have ne : other.start ≠ entry.start := fun same => untied other member (beq_of_eq same)
  exact UInt16.lt_of_le_of_ne le ne

/-- The first entry of a sorted table none of whose entries is reached. -/
theorem governs_of_ahead {later : List LineEntry} (sorted : sortedByStart entries = entry :: later)
    (behind : ∀ other ∈ entry :: later, offset < other.start.toNat) :
    entry.Governs offset entries := by
  have ordered := pairwise_sortedByStart entries
  rw [sorted, List.pairwise_cons] at ordered
  have smallest : ∀ other ∈ entries, entry.start ≤ other.start := by
    intro other member
    rw [← mem_sortedByStart, sorted, List.mem_cons] at member
    rcases member with rfl | after
    · exact UInt16.le_rfl
    · exact ordered.1 other after
  have first : (entries.filter (·.start == entry.start)).head? = some entry := by
    rw [← filter_sortedByStart, sorted, List.filter_cons]
    simp
  rcases exists_split_of_head?_filter first with ⟨front, rest, split, untied⟩
  refine .ahead split ?_ ?_ fun other member => smallest other (split ▸ by simp [member])
  · intro other member
    rw [← mem_sortedByStart, sorted] at member
    exact behind other member
  · intro other member
    have le := smallest other (split ▸ by simp [member])
    have ne : entry.start ≠ other.start := fun same => untied other member (beq_of_eq same.symm)
    exact UInt16.lt_of_le_of_ne le ne

/-- The entry that a search of the sorted table finds is the one that the offset belongs to. -/
theorem governs_of_entryFor (found : entryFor offset (sortedByStart entries).toArray = some entry) :
    entry.Governs offset entries := by
  rcases exists_sortedByStart_eq offset entries with ⟨front, back, sorted, before, behind⟩
  rw [sorted, entryFor_append before behind] at found
  cases last : front.getLast? with
  | some other =>
      obtain rfl : other = entry := by simpa [last] using found
      rcases List.getLast?_eq_some_iff.1 last with ⟨earlier, rfl⟩
      rw [List.append_assoc] at sorted
      exact governs_of_reached sorted (before other (by simp)) behind
  | none =>
      obtain rfl : front = [] := List.getLast?_eq_none_iff.1 last
      rcases List.head?_eq_some_iff.1 found with ⟨later, rfl⟩
      exact governs_of_ahead sorted behind

/-- A search of the sorted table finds the entry that the offset belongs to, and no other. -/
theorem entryFor_eq_some_iff :
    entryFor offset (sortedByStart entries).toArray = some entry ↔ entry.Governs offset entries := by
  constructor
  · exact governs_of_entryFor
  · intro governs
    cases found : entryFor offset (sortedByStart entries).toArray with
    | none =>
        have empty : entries = [] := by
          simpa [entryFor_eq_none_iff, sortedByStart] using found
        rw [empty] at governs
        cases governs with
        | reached split => simp at split
        | ahead split => simp at split
    | some other => rw [governs.unique (governs_of_entryFor found)]

/-- The line of a code offset is told by the table as it is given, in whatever order its entries stand:
there is none if there is no table or an empty one, and otherwise it is that of the one entry that the
offset belongs to. -/
theorem lineFor_ofTable (code : Bytes) (table : Option (List LineEntry)) (offset : Nat) :
    ((ofTable code table).lineFor offset = none ↔ table = none ∨ table = some []) ∧
      ∀ line, (ofTable code table).lineFor offset = some line ↔
        ∃ entries, ∃ entry : LineEntry, table = some entries ∧ entry.Governs offset entries ∧
          entry.line.toNat = line := by
  constructor
  · rw [lineFor_eq_none_iff]
    cases table <;> simp [ofTable, ← List.length_eq_zero_iff]
  · intro line
    have sorted : (ofTable code table).lines =
        table.map fun entries => (sortedByStart entries).toArray := rfl
    rw [lineFor, sorted]
    simp only [Option.bind_eq_bind, Option.bind_eq_some_iff, Option.map_eq_some_iff, Option.pure_def,
      Option.some.injEq]
    constructor
    · rintro ⟨_, ⟨entries, rfl, rfl⟩, entry, found, same⟩
      exact ⟨entries, entry, rfl, entryFor_eq_some_iff.1 found, same⟩
    · rintro ⟨entries, entry, rfl, governs, same⟩
      exact ⟨_, ⟨entries, rfl, rfl⟩, entry, entryFor_eq_some_iff.2 governs, same⟩

/-- Of two entries with the start that is reached the later one counts, and where none is reached, of two
with the smallest start the earlier one. -/
example : [5, 2, 0].map (ofTable [] (some [⟨4, 1⟩, ⟨2, 2⟩, ⟨4, 3⟩, ⟨2, 4⟩, ⟨9, 5⟩])).lineFor =
    [some 3, some 4, some 2] := by
  cbv

end CodeBody

end ApiCoverage.ClassFile
