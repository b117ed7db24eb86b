import ApiCoverage.Text.Layout
import Mathlib.Data.List.Basic

/-!
# Joining texts and reading numbers

Parts that are joined one by one are joined as a whole, and a text made of the lines of several parts
is the texts of the parts one after another. A number is read back from its digits. This is what lets
a printed page be taken apart.
-/

namespace ApiCoverage.Text

universe u

@[simp]
theorem join_replicate_empty (count : Nat) : String.join (List.replicate count "") = "" := by
  induction count with
  | zero => rfl
  | succ count ih => rw [List.replicate_succ, String.join_cons, ih, String.append_empty]

/-- Parts that are joined one by one are joined as a whole. -/
theorem join_flatMap {α : Type u} (parts : α → List String) (members : List α) :
    String.join (members.flatMap parts) =
      String.join (members.map fun member => String.join (parts member)) := by
  induction members with
  | nil => rfl
  | cons member rest ih => simp [ih]

/-- Texts with nothing between them are joined. -/
theorem intercalate_empty (texts : List String) : "".intercalate texts = String.join texts := by
  induction texts with
  | nil => rfl
  | cons text rest ih =>
      cases rest with
      | nil => simp
      | cons next others =>
          rw [String.intercalate_cons_cons, ih, String.append_empty, ← String.join_cons]

@[simp]
theorem unlines_nil : unlines [] = "" :=
  rfl

@[simp]
theorem unlines_cons (line : String) (rest : List String) :
    unlines (line :: rest) = line ++ "\n" ++ unlines rest := by
  simp [unlines]

@[simp]
theorem unlines_append (first second : List String) :
    unlines (first ++ second) = unlines first ++ unlines second := by
  simp [unlines]

/-- The lines of several parts are the texts of the parts, one after another. -/
theorem unlines_flatMap {α : Type u} (parts : α → List String) (members : List α) :
    unlines (members.flatMap parts) =
      String.join (members.map fun member => unlines (parts member)) := by
  simp only [unlines, List.map_flatMap, join_flatMap]

/-! ## Numbers -/

/-- The number that a text of decimal digits stands for. -/
def natural? (text : String) : Option Nat :=
  if text.toList ≠ [] ∧ text.toList.all Char.isDigit then
    some (Nat.ofDigitChars 10 text.toList 0)
  else none

theorem toList_toString (value : Nat) : (toString value).toList = Nat.toDigits 10 value :=
  Nat.toList_repr

theorem isDigit_of_mem_toDigits {value : Nat} {char : Char} (member : char ∈ Nat.toDigits 10 value) :
    char.isDigit = true :=
  Nat.isDigit_of_mem_toDigits (by decide) (by decide) member

/-- A number is read back. -/
@[simp]
theorem natural?_toString (value : Nat) : natural? (toString value) = some value := by
  have digits : (Nat.toDigits 10 value).all Char.isDigit = true :=
    List.all_eq_true.2 fun _ => isDigit_of_mem_toDigits
  rw [natural?, toList_toString, if_pos ⟨Nat.toDigits_ne_nil, digits⟩, Nat.ofDigitChars_ten_toDigits]

end ApiCoverage.Text
