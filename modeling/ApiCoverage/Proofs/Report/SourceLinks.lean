import ApiCoverage.Files.Path
import ApiCoverage.Report.Html
import Mathlib.Data.List.DropRight

/-!
# Links and the files that they name

A link at a call site shows the name of a source file and leads to its path. The name is that of the
outermost class of the simple class name; the path is that of the part of the full class name in front
of its first dollar sign. The two take the dots and the dollar signs of the name in different orders,
and they agree as long as the package has no dollar sign.
-/

namespace ApiCoverage

/-! ## The part behind the last separator -/

namespace Text

variable {separator : Char} {last : List Char}

/-- The characters behind the last separator, or all of them if there is none. -/
def lastPart (separator : Char) (chars : List Char) : List Char :=
  chars.rtakeWhile (· != separator)

theorem lastPart_of_not_mem (whole : separator ∉ last) : lastPart separator last = last := by
  rw [lastPart, List.rtakeWhile_eq_self_iff]
  rintro char member
  rw [bne_iff_ne]
  rintro rfl
  exact whole member

theorem mem_of_mem_lastPart {char : Char} {chars : List Char}
    (member : char ∈ lastPart separator chars) : char ∈ chars :=
  (List.rtakeWhile_suffix (· != separator) chars).subset member

/-- What is added without a separator belongs to the last part. -/
theorem lastPart_append (front : List Char) (whole : separator ∉ last) :
    lastPart separator (front ++ last) = lastPart separator front ++ last := by
  have passes : ∀ char ∈ last.reverse, (char != separator) = true := by
    intro char member
    rw [bne_iff_ne]
    rintro rfl
    exact whole (List.mem_reverse.1 member)
  rw [lastPart, List.rtakeWhile, List.reverse_append, List.takeWhile_append_of_pos passes,
    List.reverse_append, List.reverse_reverse]
  rfl

/-- Nothing in front of a separator belongs to the last part. -/
theorem lastPart_append_cons (front : List Char) (whole : separator ∉ last) :
    lastPart separator (front ++ separator :: last) = last := by
  have closed : lastPart separator (front ++ [separator]) = [] :=
    List.rtakeWhile_concat_neg _ _ _ (by simp)
  rw [List.append_cons, lastPart_append _ whole, closed, List.nil_append]

/-- A text is its last part, or a separator stands in front of that. -/
theorem exists_eq_append_cons {chars : List Char} (parted : separator ∈ chars) :
    ∃ front last, chars = front ++ separator :: last ∧ separator ∉ last := by
  obtain ⟨back, front, split, whole⟩ := List.eq_append_cons_of_mem (List.mem_reverse.2 parted)
  refine ⟨front.reverse, back.reverse, ?_, by simpa using whole⟩
  rw [← List.reverse_reverse chars, split]
  simp

theorem getLast?_splitOn (chars : List Char) :
    (chars.splitOn separator).getLast? = some (lastPart separator chars) := by
  by_cases parted : separator ∈ chars
  · obtain ⟨front, last, rfl, whole⟩ := exists_eq_append_cons parted
    rw [List.splitOn_append_cons_self, List.splitOn_eq_singleton whole, List.getLast?_append,
      lastPart_append_cons front whole]
    rfl
  · rw [List.splitOn_eq_singleton parted, lastPart_of_not_mem parted]
    rfl

end Text

open Text (lastPart)

namespace Path

theorem getLast?_segments (path : Path) :
    (segments path).getLast? = some (String.ofList (lastPart '/' path.toList)) := by
  rw [segments, List.getLast?_map, Text.getLast?_splitOn, Option.map_some]

/-- A path below another ends as it does by itself. -/
theorem getLast?_segments_append (base path : String) :
    (segments (base ++ "/" ++ path)).getLast? = (segments path).getLast? := by
  have whole : (base ++ "/" ++ path).toList = base.toList ++ '/' :: path.toList := by simp
  rw [segments, whole, List.splitOn_append_cons_self, List.map_append, List.getLast?_append,
    ← segments, getLast?_segments]
  rfl

end Path

namespace CallSite

/-- The class names of packages whose names have no dollar sign: no dot stands behind one. -/
def PlainPackage (unit : String) : Prop :=
  '.' ∉ unit.toList.dropWhile (· != '$')

instance (unit : String) : Decidable (PlainPackage unit) :=
  inferInstanceAs (Decidable ('.' ∉ unit.toList.dropWhile (· != '$')))

theorem toList_lastSegment (name : String) :
    (JvmType.lastSegment name).toList = lastPart '.' name.toList :=
  String.toList_ofList

theorem toList_outerName (name : String) :
    (outerName name).toList = name.toList.takeWhile (· != '$') :=
  String.toList_ofList

/-- Where the dots of a name become slashes, its last segment stands behind the last slash. -/
theorem lastPart_slashed {chars : List Char} (bare : '/' ∉ chars) :
    lastPart '/' (chars.map fun char => if char = '.' then '/' else char) = lastPart '.' chars := by
  have kept : ∀ {last : List Char}, '.' ∉ last →
      last.map (fun char => if char = '.' then '/' else char) = last := by
    intro last whole
    refine (List.map_congr_left fun char member => if_neg ?_).trans (List.map_id _)
    rintro rfl
    exact whole member
  by_cases parted : '.' ∈ chars
  · obtain ⟨front, last, rfl, whole⟩ := Text.exists_eq_append_cons parted
    have bareLast : '/' ∉ last := fun member =>
      bare (List.mem_append_right _ (List.mem_cons_of_mem _ member))
    rw [List.map_append, List.map_cons, if_pos rfl, kept whole, Text.lastPart_append_cons _ bareLast,
      Text.lastPart_append_cons _ whole]
  · rw [kept parted, Text.lastPart_of_not_mem bare, Text.lastPart_of_not_mem parted]

/-- The path of a source file ends with the last segment of the outermost class. -/
theorem getLast?_segments_sourcePath {site : CallSite} (bare : '/' ∉ site.unit.toList) :
    (Path.segments site.sourcePath).getLast? =
      some (JvmType.lastSegment (outerName site.unit) ++ ".java") := by
  have bareOuter : '/' ∉ (outerName site.unit).toList := by
    rw [toList_outerName]
    exact fun member => bare ((List.takeWhile_prefix _).subset member)
  rw [Path.getLast?_segments, sourcePath, String.toList_append, String.toList_ofList,
    Text.lastPart_append _ (by decide), lastPart_slashed bareOuter, String.ofList_append,
    String.ofList_toList]
  rfl

/-- The outermost class has the same simple name whether its package is left out before or after its
nested classes, if the package has no dollar sign. -/
theorem lastSegment_outerName {unit : String} (plain : PlainPackage unit) :
    JvmType.lastSegment (outerName unit) = outerName (JvmType.lastSegment unit) := by
  -- What stands behind the first dollar sign has no dot, so all of it belongs to the last segment.
  have split : unit.toList = (outerName unit).toList ++ unit.toList.dropWhile (· != '$') := by
    rw [toList_outerName, List.takeWhile_append_dropWhile]
  have outer : ∀ char ∈ lastPart '.' (outerName unit).toList, (char != '$') = true := by
    intro char member
    have inside := Text.mem_of_mem_lastPart member
    rw [toList_outerName] at inside
    have passes := List.mem_takeWhile_imp inside
    exact passes
  have stops : (unit.toList.dropWhile (· != '$')).takeWhile (· != '$') = [] :=
    List.takeWhile_eq_nil_iff.2 (List.dropWhile_get_zero_not _ _)
  rw [← String.toList_inj, toList_outerName, toList_lastSegment, toList_lastSegment, split,
    Text.lastPart_append _ plain, List.takeWhile_append_of_pos outer, stops, List.append_nil]

/-- The package of a class counts for the path from its first dollar sign on, and not for the simple
name. -/
theorem lastSegment_eq_of_split {unit front middle simple : String}
    (split : unit = front ++ "$" ++ middle ++ "." ++ simple) (whole : '.' ∉ simple.toList) :
    JvmType.lastSegment unit = simple := by
  have chars : unit.toList = (front ++ "$" ++ middle).toList ++ '.' :: simple.toList := by
    simp [split]
  rw [← String.toList_inj, toList_lastSegment, chars, Text.lastPart_append_cons _ whole]

theorem outerName_eq_of_split {unit front back : String} (split : unit = front ++ "$" ++ back)
    (whole : '$' ∉ front.toList) : outerName unit = front := by
  have passes : ∀ char ∈ front.toList, (char != '$') = true := by
    intro char member
    rw [bne_iff_ne]
    rintro rfl
    exact whole member
  have chars : unit.toList = front.toList ++ '$' :: back.toList := by simp [split]
  rw [← String.toList_inj, toList_outerName, chars, List.takeWhile_append_of_pos passes]
  simp

end CallSite

namespace Html

/-- Apart from the line number, the text of a link is the last segment of the path that it leads to. -/
def NamesLinkedFile (linkBase : Option String) (site : CallSite) : Prop :=
  ∃ path name, linkTarget linkBase site = path ++ lineSuffix "#L" site.line ∧
    linkText site = name ++ lineSuffix ":" site.line ∧ (Path.segments path).getLast? = some name

variable {linkBase : Option String} {site : CallSite}

/-- Every link leads to the file of the outermost class, below the link base or not. -/
theorem exists_path_linkTarget (linkBase : Option String) (bare : '/' ∉ site.unit.toList) :
    ∃ path, linkTarget linkBase site = path ++ lineSuffix "#L" site.line ∧
      (Path.segments path).getLast? =
        some (JvmType.lastSegment (CallSite.outerName site.unit) ++ ".java") := by
  rw [← CallSite.getLast?_segments_sourcePath bare]
  cases linkBase with
  | none => exact ⟨site.sourcePath, rfl, rfl⟩
  | some base =>
      exact ⟨trimBase base ++ "/" ++ site.sourcePath, rfl, Path.getLast?_segments_append _ _⟩

theorem namesLinkedFile_iff (linkBase : Option String) (bare : '/' ∉ site.unit.toList) :
    NamesLinkedFile linkBase site ↔
      JvmType.lastSegment (CallSite.outerName site.unit) =
        CallSite.outerName (JvmType.lastSegment site.unit) := by
  obtain ⟨path, target, last⟩ := exists_path_linkTarget linkBase bare
  constructor
  · rintro ⟨linked, name, sameTarget, sameText, named⟩
    obtain rfl : path = linked := (String.append_left_inj _).1 (target.symm.trans sameTarget)
    obtain rfl : sourceFileName site = name := (String.append_left_inj _).1 sameText
    rw [last] at named
    exact (String.append_left_inj _).1 (Option.some.inj named)
  · intro same
    refine ⟨path, sourceFileName site, target, rfl, ?_⟩
    rw [last, same]
    rfl

/-- A link names the file that it leads to if the package of the class has no dollar sign. If it has
one, the link leads to a file that is named after the package up to that sign, so it does not name
that file unless the class happens to have the same name. -/
theorem linkText_names_linked_file (linkBase : Option String) (bare : '/' ∉ site.unit.toList) :
    (CallSite.PlainPackage site.unit → NamesLinkedFile linkBase site) ∧
    ∀ front middle simple : String, site.unit = front ++ "$" ++ middle ++ "." ++ simple →
      '$' ∉ front.toList → '.' ∉ simple.toList →
      (NamesLinkedFile linkBase site ↔ JvmType.lastSegment front = CallSite.outerName simple) := by
  refine ⟨fun plain => ?_, fun front middle simple split wholeFront wholeSimple => ?_⟩
  · rw [namesLinkedFile_iff linkBase bare]
    exact CallSite.lastSegment_outerName plain
  · have opened : site.unit = front ++ "$" ++ (middle ++ "." ++ simple) := by
      rw [split]
      simp only [String.append_assoc]
    rw [namesLinkedFile_iff linkBase bare, CallSite.outerName_eq_of_split opened wholeFront,
      CallSite.lastSegment_eq_of_split split wholeSimple]

theorem linkText_names_linked_file_of_nested :
    '/' ∉ "com.acme.FooTest$Inner".toList ∧ CallSite.PlainPackage "com.acme.FooTest$Inner" ∧
      NamesLinkedFile (some "https://example.org/src/")
        ⟨"com.acme.FooTest$Inner", "run()", some 12⟩ ∧
      (NamesLinkedFile none ⟨"a$b.A$Inner", "run()", none⟩ ↔
        JvmType.lastSegment "a" = CallSite.outerName "A$Inner") := by
  have bare : '/' ∉ "com.acme.FooTest$Inner".toList := by decide
  have plain : CallSite.PlainPackage "com.acme.FooTest$Inner" := by decide
  refine ⟨bare, plain, ?_, ?_⟩
  · exact (linkText_names_linked_file (some "https://example.org/src/") bare).1 plain
  · have bareOther : '/' ∉ "a$b.A$Inner".toList := by decide
    exact (linkText_names_linked_file none bareOther).2 "a" "b" "A$Inner" (by decide) (by decide)
      (by decide)

/-- The link at a call site of the class `C` in the package `a$b` shows `C.java` and leads to `a.java`. -/
theorem not_namesLinkedFile_of_dollar_package :
    '/' ∉ "a$b.C".toList ∧ ¬ NamesLinkedFile none ⟨"a$b.C", "run()", some 12⟩ := by
  have bare : '/' ∉ "a$b.C".toList := by decide
  refine ⟨bare, ?_⟩
  rw [namesLinkedFile_iff none bare]
  decide

end Html

end ApiCoverage
