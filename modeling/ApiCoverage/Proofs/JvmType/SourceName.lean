import ApiCoverage.JvmType.SourceName
import ApiCoverage.Proofs.Text.Trimming
import Mathlib.Data.List.Induction
import Mathlib.Data.List.TakeWhile

/-!
# What type names of source text look like

A type name is a keyword or a qualified name with any number of `[]` behind it. Reading takes it apart from
its end, and the display form of a type puts it together from its front. The statements here say which texts
are type names and which types they can name, and that reading the display form of such a type gives the
type.
-/

namespace ApiCoverage.JvmType

open Primitive (ofKeyword?_eq_some_iff)
open Text (isAlphabetic isNumeric isBlank dropBlank dropBlankEnd dropBlank_eq_self trimChars
  trimChars_eq_self)

/-! ## Blanks and the characters of identifiers -/

/-- The code points of the blank characters. -/
def blankCodes : List Nat :=
  [0x9, 0xA, 0xB, 0xC, 0xD, 0x20, 0x85, 0xA0, 0x1680, 0x2000, 0x2001, 0x2002, 0x2003, 0x2004, 0x2005,
    0x2006, 0x2007, 0x2008, 0x2009, 0x200A, 0x2028, 0x2029, 0x202F, 0x205F, 0x3000]

theorem toNat_mem_blankCodes {char : Char} (blank : isBlank char = true) : char.toNat ∈ blankCodes := by
  simp only [isBlank, Bool.or_eq_true, Bool.and_eq_true, decide_eq_true_eq, beq_iff_eq] at blank
  simp only [blankCodes, List.mem_cons, List.not_mem_nil, or_false]
  omega

/-- The tables of the two properties have no blank characters in them. -/
theorem covers_blankCodes :
    ∀ code ∈ blankCodes, Text.alphabeticRanges.covers code = false ∧
      Text.numericRanges.covers code = false := by
  decide +kernel

theorem isIdentifierPart_eq_false_of_isBlank {char : Char} (blank : isBlank char = true) :
    isIdentifierPart char = false := by
  rcases covers_blankCodes _ (toNat_mem_blankCodes blank) with ⟨alphabetic, numeric⟩
  have underscore : char ≠ '_' := by
    rintro rfl
    cases blank
  have dollar : char ≠ '$' := by
    rintro rfl
    cases blank
  simp [isIdentifierPart, isAlphabetic, isNumeric, alphabetic, numeric, underscore, dollar]

theorem isIdentifierPart_of_isIdentifierStart {char : Char} (start : isIdentifierStart char = true) :
    isIdentifierPart char = true := by
  simp only [isIdentifierStart, Bool.or_eq_true] at start
  simp only [isIdentifierPart, Bool.or_eq_true]
  tauto

theorem isIdentifierPart_of_mem {name : List Char} (identifier : isIdentifier name = true) :
    ∀ char ∈ name, isIdentifierPart char = true := by
  cases name with
  | nil => cases identifier
  | cons first rest =>
      rw [isIdentifier, Bool.and_eq_true, List.all_eq_true] at identifier
      rw [List.forall_mem_cons]
      exact ⟨isIdentifierPart_of_isIdentifierStart identifier.1, identifier.2⟩

theorem dot_not_mem_of_isIdentifier {name : List Char} (identifier : isIdentifier name = true) :
    '.' ∉ name := by
  intro member
  exact absurd (isIdentifierPart_of_mem identifier _ member) (by decide)

/-! ## Qualified names -/

/-- Identifiers with dots between them. -/
inductive IsQualified : List Char → Prop where
  | identifier {name : List Char} (identifier : isIdentifier name = true) : IsQualified name
  | dotted {name rest : List Char} (identifier : isIdentifier name = true) (qualified : IsQualified rest) :
      IsQualified (name ++ '.' :: rest)

theorem isQualified_intercalate {names : List (List Char)} (present : names ≠ [])
    (identifiers : ∀ name ∈ names, isIdentifier name = true) :
    IsQualified (['.'].intercalate names) := by
  induction names with
  | nil => exact absurd rfl present
  | cons name others ih =>
      rw [List.forall_mem_cons] at identifiers
      cases others with
      | nil =>
          rw [List.intercalate_singleton]
          exact .identifier identifiers.1
      | cons next others =>
          rw [List.intercalate_cons_cons, List.append_assoc]
          exact .dotted identifiers.1 (ih (List.cons_ne_nil _ _) identifiers.2)

/-- Looking at the segments between the dots decides whether a name is a qualified one. -/
theorem isDottedName_iff {chars : List Char} : isDottedName chars = true ↔ IsQualified chars := by
  rw [isDottedName, List.all_eq_true]
  constructor
  · intro identifiers
    have qualified := isQualified_intercalate (List.splitOn_ne_nil '.' chars) identifiers
    rwa [List.intercalate_splitOn] at qualified
  · intro qualified
    induction qualified with
    | identifier identifier =>
        rw [segments, List.splitOn_eq_singleton (dot_not_mem_of_isIdentifier identifier)]
        simpa using identifier
    | dotted identifier _ ih =>
        rw [segments, List.splitOn_append_cons_self_of_not_mem (dot_not_mem_of_isIdentifier identifier),
          List.forall_mem_cons]
        exact ⟨identifier, ih⟩

theorem IsQualified.ne_nil {base : List Char} (qualified : IsQualified base) : base ≠ [] := by
  cases qualified with
  | identifier identifier =>
      rintro rfl
      cases identifier
  | dotted => simp

theorem IsQualified.eq_dot_or_isIdentifierPart {base : List Char} (qualified : IsQualified base) :
    ∀ char ∈ base, char = '.' ∨ isIdentifierPart char = true := by
  induction qualified with
  | identifier identifier => exact fun char member => .inr (isIdentifierPart_of_mem identifier char member)
  | dotted identifier _ ih =>
      rw [List.forall_mem_append, List.forall_mem_cons]
      exact ⟨fun char member => .inr (isIdentifierPart_of_mem identifier char member), .inl rfl, ih⟩

/-- No character of a qualified name is blank. -/
theorem IsQualified.isBlank_eq_false {base : List Char} (qualified : IsQualified base) :
    ∀ char ∈ base, isBlank char = false := by
  intro char member
  rcases qualified.eq_dot_or_isIdentifierPart char member with rfl | part
  · rfl
  · cases blank : isBlank char with
    | false => rfl
    | true => cases part.symm.trans (isIdentifierPart_eq_false_of_isBlank blank)

theorem IsQualified.bracket_not_mem {base : List Char} (qualified : IsQualified base) : ']' ∉ base := by
  intro member
  rcases qualified.eq_dot_or_isIdentifierPart _ member with same | part
  · cases same
  · exact absurd part (by decide)

/-- A keyword is an identifier. -/
theorem isQualified_keyword (type : Primitive) : IsQualified type.keyword.toList := by
  refine .identifier ?_
  cases type <;> decide

/-! ## Array layers -/

/-- The `[]` of each array layer, with the blanks in front of it. -/
def brackets (gaps : List (List Char)) : List Char :=
  gaps.flatMap (· ++ ['[', ']'])

/-- All that stands in front of array layers is blank. -/
def AllBlank (gaps : List (List Char)) : Prop :=
  ∀ gap ∈ gaps, ∀ char ∈ gap, isBlank char = true

theorem brackets_concat (gaps : List (List Char)) (gap : List Char) :
    brackets (gaps ++ [gap]) = brackets gaps ++ gap ++ ['[', ']'] := by
  simp [brackets]

variable {base : List Char} {gaps : List (List Char)}

/-- A text that ends with a solid base or with an array layer does not end with a blank. -/
theorem solid_end (solid : ∀ char ∈ base, isBlank char = false) (gaps : List (List Char)) :
    ∀ char ∈ (base ++ brackets gaps).getLast?, isBlank char = false := by
  cases gaps using List.reverseRecOn with
  | nil =>
      intro char last
      rw [brackets, List.flatMap_nil, List.append_nil] at last
      exact solid char (List.mem_of_getLast? last)
  | append_singleton gaps gap =>
      intro char last
      rw [brackets_concat, ← List.append_assoc, List.getLast?_append] at last
      cases last
      rfl

/-- Every array layer is taken off, and the base is left. -/
theorem stripArrays_reverse (solid : ∀ char ∈ base, isBlank char = false) (unbracketed : ']' ∉ base)
    (blank : AllBlank gaps) (depth : Nat) :
    stripArrays depth (base ++ brackets gaps).reverse = (depth + gaps.length, base.reverse) := by
  induction gaps using List.reverseRecOn generalizing depth with
  | nil =>
      rw [brackets, List.flatMap_nil, List.append_nil, stripArrays]
      · rfl
      · intro rest begins
        refine unbracketed (List.mem_reverse.1 ?_)
        rw [begins]
        exact List.mem_cons_self
  | append_singleton gaps gap ih =>
      rw [AllBlank, List.forall_mem_append, List.forall_mem_singleton] at blank
      -- Behind the last `[]` come its blanks and then the end of a shorter text, which is not blank itself.
      have gapBlank : ∀ char ∈ gap.reverse, isBlank char = true :=
        fun char member => blank.2 char (List.mem_reverse.1 member)
      have ends := solid_end solid gaps
      rw [← List.head?_reverse] at ends
      have shape : (base ++ brackets (gaps ++ [gap])).reverse =
          ']' :: '[' :: (gap.reverse ++ (base ++ brackets gaps).reverse) := by
        simp [brackets_concat]
      have left : (gap.reverse ++ (base ++ brackets gaps).reverse).dropWhile isBlank =
          (base ++ brackets gaps).reverse := by
        rw [List.dropWhile_append_of_pos gapBlank]
        exact dropBlank_eq_self ends
      rw [shape, stripArrays, left, ih blank.1, List.length_append, List.length_singleton,
        Nat.add_assoc, Nat.add_comm 1]

/-- What is taken off is array layers. -/
theorem exists_stripArrays (depth : Nat) (reversed : List Char) :
    ∃ gaps, AllBlank gaps ∧ (stripArrays depth reversed).1 = depth + gaps.length ∧
      reversed.reverse = (stripArrays depth reversed).2.reverse ++ brackets gaps := by
  fun_induction stripArrays depth reversed with
  | case1 depth rest ih =>
      rcases ih with ⟨gaps, blank, count, whole⟩
      refine ⟨gaps ++ [(rest.takeWhile isBlank).reverse], ?_, ?_, ?_⟩
      · rw [AllBlank, List.forall_mem_append, List.forall_mem_singleton]
        exact ⟨blank, fun char member => List.mem_takeWhile_imp (List.mem_reverse.1 member)⟩
      · rw [count, List.length_append, List.length_singleton]
        omega
      · have split : rest.reverse =
            (rest.dropWhile isBlank).reverse ++ (rest.takeWhile isBlank).reverse := by
          rw [← List.reverse_append, List.takeWhile_append_dropWhile]
        rw [List.reverse_cons, List.reverse_cons, split, whole, brackets_concat]
        simp
  | case2 depth reversed => exact ⟨[], by simp [AllBlank], rfl, by simp [brackets]⟩

/-! ## What a name stands for -/

@[simp]
theorem ofBaseName_keyword (type : Primitive) : ofBaseName type.keyword = .primitive type := by
  rw [ofBaseName, ofKeyword?_eq_some_iff.2 rfl]

theorem ofBaseName_eq_object {name : String} (notKeyword : ∀ type : Primitive, name ≠ type.keyword) :
    ofBaseName name = .object name := by
  have unknown : Primitive.ofKeyword? name = none :=
    Option.eq_none_iff_forall_ne_some.2 fun type found =>
      notKeyword type (ofKeyword?_eq_some_iff.1 found)
  rw [ofBaseName, unknown]

/-- A name stands for the primitive type whose keyword it is, or for the class of that name. -/
theorem ofBaseName_cases (name : String) :
    (∃ type : Primitive, name = type.keyword ∧ ofBaseName name = .primitive type) ∨
      (∀ type : Primitive, name ≠ type.keyword) ∧ ofBaseName name = .object name := by
  by_cases keyword : ∃ type : Primitive, name = type.keyword
  · rcases keyword with ⟨type, rfl⟩
    exact .inl ⟨type, rfl, ofBaseName_keyword type⟩
  · rw [not_exists] at keyword
    exact .inr ⟨keyword, ofBaseName_eq_object keyword⟩

/-- A name shows what it stands for. -/
theorem display_ofBaseName (name : String) : (ofBaseName name).display = name := by
  rcases ofBaseName_cases name with ⟨type, rfl, known⟩ | ⟨_, known⟩ <;> rw [known, display]

theorem ofBaseName_eq_void_iff {name : String} : ofBaseName name = .void ↔ name = "void" := by
  constructor
  · intro void
    rw [← display_ofBaseName name, void]
    rfl
  · rintro rfl
    exact ofBaseName_keyword .void

/-! ## Reading -/

/-- What is left when the array layers are off decides whether a text is read. -/
theorem parseSourceName_of_stripArrays {text : String} {depth : Nat} {reversed : List Char}
    {type : JvmType}
    (stripped : stripArrays 0 (trimChars text.toList).reverse = (depth, reversed)) :
    parseSourceName text = .ok type ↔
      IsQualified reversed.reverse ∧
        (ofBaseName (String.ofList reversed.reverse) = .void → depth = 0) ∧
        type = arrayOf depth (ofBaseName (String.ofList reversed.reverse)) := by
  rw [parseSourceName, stripped, ← isDottedName_iff]
  dsimp only
  split
  · next qualified =>
      rw [and_iff_right qualified]
      split
      · next forbidden =>
          simp only [Bool.and_eq_true, isVoid_iff, decide_eq_true_eq] at forbidden
          have layered : depth ≠ 0 := Nat.ne_of_gt forbidden.2
          simp [forbidden.1, layered]
      · next allowed =>
          simp only [Bool.and_eq_true, isVoid_iff, decide_eq_true_eq, not_and, Nat.not_lt,
            Nat.le_zero] at allowed
          rw [and_iff_right allowed, Except.ok.injEq, eq_comm]
  · next unqualified => simp [unqualified]

/-- Reading takes a trimmed text apart into a qualified name and array layers. -/
theorem parseSourceName_eq_ok_iff {text : String} {type : JvmType} :
    parseSourceName text = .ok type ↔
      ∃ base gaps, trimChars text.toList = base ++ brackets gaps ∧ IsQualified base ∧ AllBlank gaps ∧
        (ofBaseName (String.ofList base) = .void → gaps = []) ∧
        type = arrayOf gaps.length (ofBaseName (String.ofList base)) := by
  constructor
  · intro read
    rcases exists_stripArrays 0 (trimChars text.toList).reverse with ⟨gaps, blank, count, whole⟩
    rw [Nat.zero_add] at count
    rw [List.reverse_reverse] at whole
    rcases (parseSourceName_of_stripArrays rfl).1 read with ⟨qualified, inhabited, rfl⟩
    rw [count, List.length_eq_zero_iff] at inhabited
    exact ⟨_, gaps, whole, qualified, blank, inhabited, by rw [count]⟩
  · rintro ⟨base, gaps, whole, qualified, blank, inhabited, rfl⟩
    have stripped : stripArrays 0 (trimChars text.toList).reverse = (gaps.length, base.reverse) := by
      rw [whole, stripArrays_reverse qualified.isBlank_eq_false qualified.bracket_not_mem blank,
        Nat.zero_add]
    rw [parseSourceName_of_stripArrays stripped, List.reverse_reverse, List.length_eq_zero_iff]
    exact ⟨qualified, inhabited, rfl⟩

/-! ## Showing -/

@[simp]
theorem display_arrayOf (depth : Nat) (type : JvmType) :
    (arrayOf depth type).display.toList =
      type.display.toList ++ brackets (List.replicate depth []) := by
  induction depth with
  | zero => simp [arrayOf, brackets]
  | succ depth ih =>
      rw [arrayOf_succ, display, String.toList_append, ih, List.replicate_succ', brackets_concat,
        List.append_nil, List.append_assoc]
      rfl

/-- A name that is qualified and that is shown by what it stands for is read back under any number of array
layers. -/
theorem parseSourceName_display_arrayOf {name : String} (qualified : IsQualified name.toList) {depth : Nat}
    (inhabited : ofBaseName name = .void → depth = 0) :
    parseSourceName (arrayOf depth (ofBaseName name)).display = .ok (arrayOf depth (ofBaseName name)) := by
  have shape := display_arrayOf depth (ofBaseName name)
  rw [display_ofBaseName] at shape
  have solidStart : ∀ char ∈ (name.toList ++ brackets (List.replicate depth [])).head?,
      isBlank char = false := by
    rcases List.exists_cons_of_ne_nil qualified.ne_nil with ⟨first, rest, begins⟩
    intro char found
    rw [begins] at found
    cases found
    refine qualified.isBlank_eq_false _ ?_
    rw [begins]
    exact List.mem_cons_self
  have trimmed := trimChars_eq_self solidStart (solid_end qualified.isBlank_eq_false _)
  rw [parseSourceName_eq_ok_iff, shape, trimmed]
  refine ⟨name.toList, List.replicate depth [], rfl, qualified, ?_, ?_, ?_⟩
  · intro gap member char inside
    rw [List.eq_of_mem_replicate member] at inside
    cases inside
  · rw [String.ofList_toList, List.replicate_eq_nil_iff]
    exact inhabited
  · rw [String.ofList_toList, List.length_replicate]

/-! ## Types that have names -/

/-- A type that a name can stand for: `void` is not held by arrays, and a class has a qualified name that is
no keyword. -/
structure IsNameable (type : JvmType) : Prop where
  inhabited : type = .void ∨ type.unwrap.2 ≠ .void
  named : ∀ name, type.unwrap.2 = .object name →
    IsQualified name.toList ∧ ∀ keyword : Primitive, name ≠ keyword.keyword

@[simp]
theorem unwrap_array (element : JvmType) :
    (array element).unwrap = (element.unwrap.1 + 1, element.unwrap.2) :=
  rfl

theorem arrayOf_unwrap (type : JvmType) : arrayOf type.unwrap.1 type.unwrap.2 = type := by
  induction type with
  | primitive type => rfl
  | object name => rfl
  | array element ih => rw [unwrap_array, arrayOf_succ, ih]

/-- What arrays hold in the end is no array. -/
theorem unwrap_ne_array (type element : JvmType) : type.unwrap.2 ≠ .array element := by
  induction type with
  | primitive type => exact nofun
  | object name => exact nofun
  | array inner ih => exact ih

theorem unwrap_arrayOf_ofBaseName (depth : Nat) (name : String) :
    (arrayOf depth (ofBaseName name)).unwrap = (depth, ofBaseName name) := by
  induction depth with
  | zero =>
      rcases ofBaseName_cases name with ⟨type, _, known⟩ | ⟨_, known⟩
      · rw [known]
        rfl
      · rw [known]
        rfl
  | succ depth ih => rw [arrayOf_succ, unwrap_array, ih]

/-- The types that names can stand for are the arrays of what qualified names stand for. -/
theorem isNameable_iff {type : JvmType} :
    type.IsNameable ↔
      ∃ name depth, IsQualified name.toList ∧ (ofBaseName name = .void → depth = 0) ∧
        type = arrayOf depth (ofBaseName name) := by
  constructor
  · rintro ⟨inhabited, named⟩
    have whole := arrayOf_unwrap type
    cases held : type.unwrap.2 with
    | primitive keyword =>
        rw [held, ← ofBaseName_keyword] at whole
        refine ⟨keyword.keyword, type.unwrap.1, isQualified_keyword keyword, fun void => ?_, whole.symm⟩
        rw [ofBaseName_keyword] at void
        rcases inhabited with rfl | nonvoid
        · rfl
        · exact absurd (held.trans void) nonvoid
    | object name =>
        rcases named name held with ⟨qualified, notKeyword⟩
        have known := ofBaseName_eq_object notKeyword
        rw [held, ← known] at whole
        refine ⟨name, type.unwrap.1, qualified, fun void => ?_, whole.symm⟩
        cases known.symm.trans void
    | array element => exact absurd held (unwrap_ne_array type element)
  · rintro ⟨name, depth, qualified, inhabited, rfl⟩
    constructor
    · rw [unwrap_arrayOf_ofBaseName]
      by_cases void : ofBaseName name = .void
      · rw [inhabited void, void]
        exact .inl rfl
      · exact .inr void
    · intro shown held
      rw [unwrap_arrayOf_ofBaseName] at held
      rcases ofBaseName_cases name with ⟨type, _, known⟩ | ⟨notKeyword, known⟩
      · cases known.symm.trans held
      · cases known.symm.trans held
        exact ⟨qualified, notKeyword⟩

/-- The display form of a type that a name can stand for is such a name. -/
theorem IsNameable.parseSourceName_eq {type : JvmType} (nameable : type.IsNameable) :
    parseSourceName type.display = .ok type := by
  rcases isNameable_iff.1 nameable with ⟨name, depth, qualified, inhabited, rfl⟩
  exact parseSourceName_display_arrayOf qualified inhabited

theorem isNameable_of_parseSourceName {text : String} {type : JvmType}
    (read : parseSourceName text = .ok type) : type.IsNameable := by
  rcases parseSourceName_eq_ok_iff.1 read with ⟨base, gaps, _, qualified, _, inhabited, rfl⟩
  refine isNameable_iff.2 ⟨String.ofList base, gaps.length, ?_, ?_, rfl⟩
  · rwa [String.toList_ofList]
  · rwa [List.length_eq_zero_iff]

/-! ## The texts that are type names -/

/-- A keyword or a qualified name with array layers behind it, but none behind `void`. -/
inductive IsSourceName : List Char → Prop where
  | mk {base : List Char} {gaps : List (List Char)}
      (named : (∃ type : Primitive, base = type.keyword.toList) ∨ IsQualified base)
      (blank : AllBlank gaps) (inhabited : base = "void".toList → gaps = []) :
      IsSourceName (base ++ brackets gaps)

theorem exists_parseSourceName_iff {text : String} :
    (∃ type, parseSourceName text = .ok type) ↔ IsSourceName (trimChars text.toList) := by
  simp only [parseSourceName_eq_ok_iff]
  constructor
  · rintro ⟨_, base, gaps, whole, qualified, blank, inhabited, _⟩
    rw [whole]
    refine .mk (.inr qualified) blank fun void => inhabited ?_
    rw [ofBaseName_eq_void_iff, void, String.ofList_toList]
  · intro sourceName
    generalize trimChars text.toList = chars at sourceName
    rcases sourceName with @⟨base, gaps, named, blank, inhabited⟩
    have qualified : IsQualified base := by
      rcases named with ⟨type, rfl⟩ | qualified
      · exact isQualified_keyword type
      · exact qualified
    refine ⟨_, base, gaps, rfl, qualified, blank, fun void => inhabited ?_, rfl⟩
    rw [← ofBaseName_eq_void_iff.1 void, String.toList_ofList]

/-- What is read from a text can be shown and read again, and it is a type that a name can stand for; every
such type is read from its display form; and the texts that are read are, but for blanks at their ends, the
keywords and the qualified names with array layers behind them. -/
theorem parseSourceName_inverts_display :
    (∀ text type, parseSourceName text = .ok type →
      parseSourceName type.display = .ok type ∧ type.IsNameable) ∧
    (∀ type : JvmType, type.IsNameable → parseSourceName type.display = .ok type) ∧
    ∀ text : String,
      (∃ type, parseSourceName text = .ok type) ↔ IsSourceName (trimChars text.toList) := by
  refine ⟨fun text type read => ?_, fun type nameable => nameable.parseSourceName_eq,
    fun text => exists_parseSourceName_iff⟩
  have nameable := isNameable_of_parseSourceName read
  exact ⟨nameable.parseSourceName_eq, nameable⟩

/-- Blanks may stand around a name and in front of each layer, and words of all scripts are names. -/
example : parseSourceName "  été.Größe []\t[] " =
    .ok (.array (.array (.object "été.Größe"))) := by
  cbv

end ApiCoverage.JvmType
