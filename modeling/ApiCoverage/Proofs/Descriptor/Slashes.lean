import ApiCoverage.ClassFile.Pool

/-!
# Dots and slashes in names

Class files spell package names with slashes and everything else with dots. Going to slashes and
back gives the dotted form of a name, which is the name itself when it holds no slash.
-/

namespace ApiCoverage

namespace Descriptor

@[simp]
theorem dotted_slashed (chars : List Char) : dotted (slashed chars) = dotted chars := by
  rw [dotted, dotted, slashed, List.map_map]
  apply List.map_congr_left
  intro char _
  by_cases dot : char = '.'
  · simp [dot]
  · simp [dot]

@[simp]
theorem slashed_dotted (chars : List Char) : slashed (dotted chars) = slashed chars := by
  rw [slashed, slashed, dotted, List.map_map]
  apply List.map_congr_left
  intro char _
  by_cases slash : char = '/'
  · simp [slash]
  · simp [slash]

@[simp]
theorem slashed_append (first second : List Char) :
    slashed (first ++ second) = slashed first ++ slashed second :=
  List.map_append

/-- A substitution brings in no character but the new one. -/
theorem not_mem_substituted {old new char : Char} {chars : List Char} (absent : char ∉ chars)
    (differs : char ≠ new) :
    char ∉ chars.map fun other => if other = old then new else other := by
  intro member
  rcases List.mem_map.1 member with ⟨other, inside, same⟩
  split at same
  · exact differs same.symm
  · subst same
    exact absent inside

/-- A substitution leaves none of the characters that it replaces. -/
theorem replaced_not_mem_substituted {old new : Char} (differs : new ≠ old) (chars : List Char) :
    old ∉ chars.map fun other => if other = old then new else other := by
  intro member
  rcases List.mem_map.1 member with ⟨char, _, same⟩
  split at same
  · exact differs same
  · next other => exact other same

/-- A substitution without anything to replace changes nothing. -/
theorem substituted_eq_self {old new : Char} {chars : List Char} (absent : old ∉ chars) :
    (chars.map fun other => if other = old then new else other) = chars := by
  have kept : ∀ char ∈ chars, (if char = old then new else char) = char := by
    intro char member
    apply if_neg
    rintro rfl
    exact absent member
  rw [List.map_congr_left kept, List.map_id']

theorem semicolon_not_mem_slashed {chars : List Char} (absent : ';' ∉ chars) :
    ';' ∉ slashed chars :=
  not_mem_substituted absent (by decide)

theorem semicolon_not_mem_dotted {chars : List Char} (absent : ';' ∉ chars) :
    ';' ∉ dotted chars :=
  not_mem_substituted absent (by decide)

theorem slash_not_mem_dotted (chars : List Char) : '/' ∉ dotted chars :=
  replaced_not_mem_substituted (by decide) chars

theorem dot_not_mem_slashed (chars : List Char) : '.' ∉ slashed chars :=
  replaced_not_mem_substituted (by decide) chars

theorem dotted_eq_self {chars : List Char} (unslashed : '/' ∉ chars) : dotted chars = chars :=
  substituted_eq_self unslashed

theorem slashed_eq_self {chars : List Char} (undotted : '.' ∉ chars) : slashed chars = chars :=
  substituted_eq_self undotted

end Descriptor

namespace ClassFile.Pool

@[simp]
theorem dottedName_ofList_slashed (name : String) :
    dottedName (String.ofList (Descriptor.slashed name.toList)) = dottedName name := by
  rw [dottedName, String.toList_ofList, Descriptor.dotted_slashed, dottedName]

theorem dottedName_eq_self {name : String} (unslashed : '/' ∉ name.toList) :
    dottedName name = name := by
  rw [dottedName, Descriptor.dotted_eq_self unslashed, String.ofList_toList]

end ClassFile.Pool

end ApiCoverage
