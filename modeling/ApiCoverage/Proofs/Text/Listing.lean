import ApiCoverage.Text.Listing
import Mathlib.Data.List.Basic

/-!
# Lines and entries of a list file

A line ends at a line feed, with the carriage return in front of it if there is one, or at the end of
the text. The lines are described without the order in which they are collected, and the entries of a
list file are the trimmed lines that are neither empty nor comments.
-/

namespace ApiCoverage.Text

/-- The lines of a text: what stands in front of its first line feed, all of it if it has none, and the
lines of what stands behind its first line feed. -/
inductive LineOf : List Char → List Char → Prop where
  | last {line : List Char} (whole : '\n' ∉ line) (filled : line ≠ []) : LineOf line line
  | feed {line : List Char} (whole : '\n' ∉ line) (bare : line.getLast? ≠ some '\r')
      (rest : List Char) : LineOf (line ++ '\n' :: rest) line
  | carriage {line : List Char} (whole : '\n' ∉ line) (rest : List Char) :
      LineOf (line ++ '\r' :: '\n' :: rest) line
  | later {first rest line : List Char} (whole : '\n' ∉ first) (found : LineOf rest line) :
      LineOf (first ++ '\n' :: rest) line

/-- A text is taken apart at its first line feed, and so is what stands behind it. -/
@[elab_as_elim]
theorem feed_induction {motive : List Char → Prop}
    (last : ∀ line, '\n' ∉ line → motive line)
    (feed : ∀ first rest, '\n' ∉ first → motive rest → motive (first ++ '\n' :: rest))
    (chars : List Char) : motive chars := by
  by_cases present : '\n' ∈ chars
  · obtain ⟨first, rest, split, whole⟩ := List.eq_append_cons_of_mem present
    have shorter : rest.length < chars.length := by
      rw [split, List.length_append, List.length_cons]
      omega
    rw [split]
    exact feed first rest whole (feed_induction last feed rest)
  · exact last chars present
  termination_by chars.length

/-! ## Collecting lines -/

theorem dropCarriageReturn_append (line : List Char) : dropCarriageReturn (line ++ ['\r']) = line := by
  simp [dropCarriageReturn]

theorem dropCarriageReturn_eq_self {line : List Char} (bare : line.getLast? ≠ some '\r') :
    dropCarriageReturn line = line := by
  rw [dropCarriageReturn]
  split
  · next front reversed =>
      rw [← List.head?_reverse, reversed] at bare
      exact absurd rfl bare
  · rfl

/-- Characters without a line feed join the open line. -/
theorem linesFrom_append_of_not_mem {front : List Char} (whole : '\n' ∉ front) (current : List Char)
    (done : List (List Char)) (rest : List Char) :
    linesFrom current done (front ++ rest) = linesFrom (front.reverse ++ current) done rest := by
  induction front generalizing current with
  | nil => rfl
  | cons char front ih =>
      rw [List.mem_cons, not_or] at whole
      rw [List.cons_append, linesFrom, ih whole.2, List.reverse_cons, List.append_assoc,
        List.singleton_append]
      exact Ne.symm whole.1

/-- The lines that are closed already stand in front of the others. -/
theorem linesFrom_eq_append (current : List Char) (done : List (List Char)) (chars : List Char) :
    linesFrom current done chars = done.reverse ++ linesFrom current [] chars := by
  induction chars generalizing current done with
  | nil => cases current <;> simp [linesFrom]
  | cons char rest ih =>
      by_cases feed : char = '\n'
      · subst feed
        rw [linesFrom, linesFrom, ih, ih [] [_], List.reverse_cons, List.append_assoc,
          List.reverse_singleton]
      · rw [linesFrom, linesFrom, ih]
        · exact feed
        · exact feed

/-- A text without a line feed is one line, or none if it is empty. -/
theorem linesFrom_of_not_mem {chars : List Char} (whole : '\n' ∉ chars) :
    linesFrom [] [] chars = if chars = [] then [] else [chars] := by
  have joined := linesFrom_append_of_not_mem whole [] [] []
  rw [List.append_nil, List.append_nil] at joined
  rw [joined, linesFrom]
  cases chars <;> simp

/-- The first line feed closes the first line. -/
theorem linesFrom_append_feed {first : List Char} (whole : '\n' ∉ first) (rest : List Char) :
    linesFrom [] [] (first ++ '\n' :: rest) = dropCarriageReturn first :: linesFrom [] [] rest := by
  rw [linesFrom_append_of_not_mem whole, List.append_nil, linesFrom, List.reverse_reverse,
    linesFrom_eq_append]
  rfl

/-! ## The lines of a text -/

/-- The first line of a text with a line feed, whether or not a carriage return stands in front of the
line feed. -/
theorem lineOf_dropCarriageReturn {first : List Char} (whole : '\n' ∉ first) (rest : List Char) :
    LineOf (first ++ '\n' :: rest) (dropCarriageReturn first) := by
  by_cases bare : first.getLast? = some '\r'
  · obtain ⟨line, rfl⟩ := List.getLast?_eq_some_iff.1 bare
    rw [dropCarriageReturn_append, List.append_assoc]
    exact .carriage (fun member => whole (List.mem_append_left _ member)) rest
  · rw [dropCarriageReturn_eq_self bare]
    exact .feed whole bare rest

theorem mem_linesFrom_of_lineOf {chars line : List Char} (found : LineOf chars line) :
    line ∈ linesFrom [] [] chars := by
  induction found with
  | last whole filled => simp [linesFrom_of_not_mem whole, filled]
  | feed whole bare rest =>
      rw [linesFrom_append_feed whole, dropCarriageReturn_eq_self bare]
      exact List.mem_cons_self
  | @carriage line whole rest =>
      have pair : line ++ '\r' :: '\n' :: rest = (line ++ ['\r']) ++ '\n' :: rest := by simp
      rw [pair, linesFrom_append_feed (by simpa using whole), dropCarriageReturn_append]
      exact List.mem_cons_self
  | later whole _ ih =>
      rw [linesFrom_append_feed whole]
      exact List.mem_cons_of_mem _ ih

theorem lineOf_of_mem_linesFrom {chars line : List Char} (member : line ∈ linesFrom [] [] chars) :
    LineOf chars line := by
  induction chars using feed_induction with
  | last chars whole =>
      rw [linesFrom_of_not_mem whole] at member
      split at member
      · cases member
      · next filled =>
          cases List.mem_singleton.1 member
          exact .last whole filled
  | feed first rest whole ih =>
      rw [linesFrom_append_feed whole] at member
      rcases List.mem_cons.1 member with rfl | later
      · exact lineOf_dropCarriageReturn whole rest
      · exact .later whole (ih later)

theorem mem_lines_iff {text : String} {line : List Char} :
    line ∈ lines text ↔ LineOf text.toList line :=
  ⟨lineOf_of_mem_linesFrom, mem_linesFrom_of_lineOf⟩

/-! ## The entries of a list file -/

theorem isEntry_iff {chars : List Char} :
    isEntry chars = true ↔ chars ≠ [] ∧ chars.head? ≠ some '#' := by
  unfold isEntry
  split
  · simp
  · simp
  · next first rest comment => simpa using comment

/-- The entries are the trimmed lines that are neither empty nor comments. -/
theorem mem_entries_iff {text entry : String} :
    entry ∈ entries text ↔ ∃ line, LineOf text.toList line ∧ trimChars line = entry.toList ∧
      entry ≠ "" ∧ entry.toList.head? ≠ some '#' := by
  simp only [entries, List.mem_map, List.mem_filter, mem_lines_iff, isEntry_iff]
  constructor
  · rintro ⟨_, ⟨⟨line, found, rfl⟩, filled, comment⟩, rfl⟩
    refine ⟨line, found, by simp, ?_, by simpa using comment⟩
    rwa [ne_eq, String.ofList_eq_empty_iff]
  · rintro ⟨line, found, trimmed, filled, comment⟩
    refine ⟨entry.toList, ⟨⟨line, found, trimmed⟩, ?_, comment⟩, String.ofList_toList⟩
    rwa [ne_eq, String.toList_eq_nil_iff]

end ApiCoverage.Text
