import ApiCoverage.Proofs.Text.Listing
import ApiCoverage.Proofs.Text.Trimming

/-!
# Joining list files

The last line of one list file and the first line of another stay apart when a line feed is put
between the files, so the entries of the whole are those of the one and then those of the other. It
does not matter how the first file ends: a line feed at its end opens an empty line, which is no entry,
and a carriage return at its end becomes part of the line feed but would be trimmed away as well.

A list of texts that can stand in a list file is therefore written with line feeds between them and
read back as it was.
-/

namespace ApiCoverage.Text

/-- The entries among some lines, in the order of the lines. -/
def entriesAmong (lines : List (List Char)) : List String :=
  ((lines.map trimChars).filter isEntry).map String.ofList

theorem entries_eq_entriesAmong (text : String) :
    entries text = entriesAmong (linesFrom [] [] text.toList) :=
  rfl

theorem entriesAmong_append (front back : List (List Char)) :
    entriesAmong (front ++ back) = entriesAmong front ++ entriesAmong back := by
  simp [entriesAmong]

/-! ## The joint of two texts -/

/-- A carriage return that the line feed leaves at the end of a line is trimmed away. -/
theorem trimChars_dropCarriageReturn (line : List Char) :
    trimChars (dropCarriageReturn line) = trimChars line := by
  by_cases bare : line.getLast? = some '\r'
  · obtain ⟨front, rfl⟩ := List.getLast?_eq_some_iff.1 bare
    rw [dropCarriageReturn_append, trimChars_concat_of_isBlank (by decide)]
  · rw [dropCarriageReturn_eq_self bare]

theorem entriesAmong_dropCarriageReturn (line : List Char) :
    entriesAmong [dropCarriageReturn line] = entriesAmong [line] := by
  simp only [entriesAmong, List.map_cons, List.map_nil, trimChars_dropCarriageReturn]

/-- A text without a line feed has the entries of one line. If it is empty it has no line, but an empty
line is no entry either. -/
theorem entriesAmong_linesFrom_of_not_mem {chars : List Char} (whole : '\n' ∉ chars) :
    entriesAmong (linesFrom [] [] chars) = entriesAmong [chars] := by
  rw [linesFrom_of_not_mem whole]
  split
  · next empty =>
      rw [empty]
      rfl
  · rfl

theorem entriesAmong_linesFrom_of_feed {first : List Char} (whole : '\n' ∉ first) (rest : List Char) :
    entriesAmong (linesFrom [] [] (first ++ '\n' :: rest)) =
      entriesAmong [first] ++ entriesAmong (linesFrom [] [] rest) := by
  rw [linesFrom_append_feed whole, ← List.singleton_append, entriesAmong_append,
    entriesAmong_dropCarriageReturn]

/-- A line feed keeps what stands in front of it apart from what stands behind it. -/
theorem entriesAmong_linesFrom_join (front back : List Char) :
    entriesAmong (linesFrom [] [] (front ++ '\n' :: back)) =
      entriesAmong (linesFrom [] [] front) ++ entriesAmong (linesFrom [] [] back) := by
  induction front using feed_induction with
  | last line whole =>
      rw [entriesAmong_linesFrom_of_feed whole, entriesAmong_linesFrom_of_not_mem whole]
  | feed first rest whole ih =>
      rw [List.append_assoc, List.cons_append, entriesAmong_linesFrom_of_feed whole, ih,
        entriesAmong_linesFrom_of_feed whole, List.append_assoc]

/-- Two list files with a line feed between them have the entries of the first and then those of the
second. -/
theorem entries_join (front back : String) :
    entries (front ++ "\n" ++ back) = entries front ++ entries back := by
  have chars : (front ++ "\n" ++ back).toList = front.toList ++ '\n' :: back.toList := by simp
  rw [entries_eq_entriesAmong, chars, entriesAmong_linesFrom_join]
  rfl

/-! ## Texts that can be listed -/

/-- A text can stand in a list file: it fits on a line, trimming leaves it as it is, and it is neither
empty nor a comment. -/
structure IsListable (text : String) : Prop where
  oneLine : '\n' ∉ text.toList
  trimmed : trimChars text.toList = text.toList
  filled : text ≠ ""
  noComment : text.toList.head? ≠ some '#'

theorem LineOf.not_mem {chars line : List Char} (found : LineOf chars line) : '\n' ∉ line := by
  induction found with
  | last whole filled => exact whole
  | feed whole bare rest => exact whole
  | carriage whole rest => exact whole
  | later whole found ih => exact ih

theorem isListable_of_mem_entries {text entry : String} (listed : entry ∈ entries text) :
    IsListable entry := by
  obtain ⟨line, found, trimmed, filled, comment⟩ := mem_entries_iff.1 listed
  refine ⟨?_, ?_, filled, comment⟩
  · rw [← trimmed]
    exact fun member => found.not_mem ((trimChars_sublist line).subset member)
  · rw [← trimmed, trimChars_trimChars]

/-- A text that can be listed is a list file with itself as the one entry. -/
theorem IsListable.entries_eq {text : String} (listable : IsListable text) :
    entries text = [text] := by
  have entry : isEntry text.toList = true := by
    rw [isEntry_iff, ne_eq, String.toList_eq_nil_iff]
    exact ⟨listable.filled, listable.noComment⟩
  rw [entries_eq_entriesAmong, entriesAmong_linesFrom_of_not_mem listable.oneLine]
  simp [entriesAmong, listable.trimmed, entry]

/-- A list of texts is read back from its lines exactly if each of the texts can be listed. -/
theorem entries_intercalate_eq_self_iff {texts : List String} :
    entries ("\n".intercalate texts) = texts ↔ ∀ text ∈ texts, IsListable text := by
  constructor
  · intro same text member
    rw [← same] at member
    exact isListable_of_mem_entries member
  · intro listable
    induction texts with
    | nil => rfl
    | cons first rest ih =>
        obtain ⟨head, others⟩ := List.forall_mem_cons.1 listable
        cases rest with
        | nil => rw [String.intercalate_singleton, head.entries_eq]
        | cons second rest =>
            rw [String.intercalate_cons_cons, entries_join, head.entries_eq, ih others,
              List.singleton_append]

/-- The entries of a list file, one on each line, are a list file with the same entries. -/
theorem entries_intercalate_entries (text : String) :
    entries ("\n".intercalate (entries text)) = entries text :=
  entries_intercalate_eq_self_iff.2 fun _ listed => isListable_of_mem_entries listed

end ApiCoverage.Text
