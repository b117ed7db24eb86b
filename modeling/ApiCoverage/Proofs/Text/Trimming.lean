import ApiCoverage.Text.Blank
import Mathlib.Data.List.TakeWhile

/-!
# Trimming

What is trimmed away are blanks at the ends. A text without blanks at its ends stays as it is, so
trimming again changes nothing, and nothing is left of a text exactly if it is all blanks.
-/

namespace ApiCoverage.Text

theorem dropBlank_eq_self {chars : List Char} (solid : ∀ char ∈ chars.head?, isBlank char = false) :
    dropBlank chars = chars := by
  cases chars with
  | nil => rfl
  | cons first rest =>
      rw [dropBlank, List.dropWhile_cons, solid first rfl]
      rfl

/-- Trimming leaves a text alone that neither begins nor ends with a blank. -/
theorem trimChars_eq_self {chars : List Char} (solidStart : ∀ char ∈ chars.head?, isBlank char = false)
    (solidEnd : ∀ char ∈ chars.getLast?, isBlank char = false) : trimChars chars = chars := by
  rw [← List.head?_reverse] at solidEnd
  rw [trimChars, dropBlank_eq_self solidStart, dropBlankEnd, dropBlank_eq_self solidEnd,
    List.reverse_reverse]

/-- What is left behind the blanks at the front does not begin with one. -/
theorem isBlank_head?_dropBlank (chars : List Char) :
    ∀ char ∈ (dropBlank chars).head?, isBlank char = false := by
  intro char first
  have solid := List.head?_dropWhile_not isBlank chars
  rw [dropBlank, Option.mem_def] at first
  rwa [first] at solid

theorem dropBlankEnd_isPrefix (chars : List Char) : dropBlankEnd chars <+: chars := by
  rw [dropBlankEnd, ← List.reverse_suffix, List.reverse_reverse]
  exact List.dropWhile_suffix isBlank

/-- Trimming only leaves characters out. -/
theorem trimChars_sublist (chars : List Char) : (trimChars chars).Sublist chars :=
  (dropBlankEnd_isPrefix _).sublist.trans (List.dropWhile_sublist isBlank)

theorem isBlank_head?_trimChars (chars : List Char) :
    ∀ char ∈ (trimChars chars).head?, isBlank char = false := by
  intro char first
  obtain ⟨rest, split⟩ := dropBlankEnd_isPrefix (dropBlank chars)
  apply isBlank_head?_dropBlank chars char
  rw [← split, List.head?_append, ← trimChars, Option.mem_def.1 first]
  rfl

theorem isBlank_getLast?_trimChars (chars : List Char) :
    ∀ char ∈ (trimChars chars).getLast?, isBlank char = false := by
  intro char last
  rw [trimChars, dropBlankEnd, List.getLast?_reverse] at last
  exact isBlank_head?_dropBlank _ char last

@[simp]
theorem trimChars_trimChars (chars : List Char) : trimChars (trimChars chars) = trimChars chars :=
  trimChars_eq_self (isBlank_head?_trimChars chars) (isBlank_getLast?_trimChars chars)

theorem dropBlank_cons_of_isBlank {char : Char} (blank : isBlank char = true) (rest : List Char) :
    dropBlank (char :: rest) = dropBlank rest :=
  List.dropWhile_cons_of_pos blank

theorem dropBlankEnd_concat_of_isBlank {char : Char} (blank : isBlank char = true)
    (chars : List Char) : dropBlankEnd (chars ++ [char]) = dropBlankEnd chars := by
  rw [dropBlankEnd, List.reverse_append, List.reverse_singleton, List.singleton_append,
    dropBlank_cons_of_isBlank blank, dropBlankEnd]

/-- A blank at the end makes no difference. -/
theorem trimChars_concat_of_isBlank {char : Char} (blank : isBlank char = true) (chars : List Char) :
    trimChars (chars ++ [char]) = trimChars chars := by
  have longer : dropBlank (chars ++ [char]) =
      if (dropBlank chars).isEmpty then dropBlank [char] else dropBlank chars ++ [char] :=
    List.dropWhile_append
  rw [trimChars, trimChars, longer]
  split
  · next empty =>
      -- All of the text is blank, and so is what the new character adds.
      rw [dropBlank_cons_of_isBlank blank, List.isEmpty_iff.1 empty]
      rfl
  · exact dropBlankEnd_concat_of_isBlank blank _

theorem dropBlank_eq_nil_iff {chars : List Char} :
    dropBlank chars = [] ↔ ∀ char ∈ chars, isBlank char = true :=
  List.dropWhile_eq_nil_iff

/-- Nothing is left of a text that is all blanks, and of no other. -/
theorem trimChars_eq_nil_iff {chars : List Char} :
    trimChars chars = [] ↔ ∀ char ∈ chars, isBlank char = true := by
  rw [trimChars, dropBlankEnd, List.reverse_eq_nil_iff, dropBlank_eq_nil_iff]
  constructor
  · intro blank
    rw [← dropBlank_eq_nil_iff]
    by_contra remains
    -- What is left at the front begins with a character that is no blank.
    have solid := List.head_dropWhile_not isBlank remains
    have first := blank _ (List.mem_reverse.2 (List.head_mem remains))
    exact Bool.noConfusion (solid.symm.trans first)
  · intro blank
    rw [dropBlank_eq_nil_iff.2 blank]
    nofun

theorem isEmpty_trim_iff {text : String} :
    (trim text).isEmpty = true ↔ ∀ char ∈ text.toList, isBlank char = true := by
  rw [← trimChars_eq_nil_iff, String.isEmpty_iff, trim, String.ofList_eq_empty_iff]

end ApiCoverage.Text
