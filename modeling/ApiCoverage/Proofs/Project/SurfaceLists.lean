import ApiCoverage.Project.Plan
import ApiCoverage.Proofs.ExclusionList
import ApiCoverage.Proofs.Files.Lookup
import ApiCoverage.Proofs.Ordered.Repetition
import ApiCoverage.Proofs.Text.ByteGroups
import ApiCoverage.Proofs.Text.Joining

/-!
# The surfaces of a plan

The names of the surfaces of a scan come from its options and from a list file, which is the one that is
given or else the one in the scan root. A plan takes the names of the options and then those of the file,
and leaves out repetitions. Lists of surfaces and lists of exclusions have the same form, so a text is
read as the same names in both, and list files can be joined.
-/

namespace ApiCoverage

/-- A text file holds the standard bytes of its text. -/
theorem FileTree.readText_eq_ok_iff {tree : FileTree} {path : Path} {text : String} :
    tree.readText path = .ok text ↔ tree.read path = .ok (Bytes.ofText text) := by
  rw [readText, Outcome.bind_eq_ok_iff]
  constructor
  · rintro ⟨content, read, given⟩
    cases decoded : String.fromUTF8? ⟨content.toArray⟩ with
    | none =>
        rw [decoded] at given
        cases given
    | some held =>
        rw [decoded] at given
        cases given
        rw [read, Text.ModifiedUtf8.decodeStandard?_eq_some_iff.1 decoded]
  · intro read
    refine ⟨_, read, ?_⟩
    rw [← Text.ModifiedUtf8.decodeStandard?, Bytes.decodeStandard?_ofText]
    rfl

/-- An entry that is repeated in an exclusion list counts once. -/
theorem ExclusionList.size_listed (dropObjectMethods : Bool) (text : String) :
    (ofText dropObjectMethods text).listed.size = (Text.entries text).eraseDups.length :=
  OrderedSet.size_ofList _

namespace ScanOptions

variable {tree : FileTree} {options : ScanOptions} {root : Path} {listed : List String}
  {plan : ScanPlan}

/-! ## The list file -/

/-- A scan takes names from a list file: the one that is given, or else the one that is found in the scan
root, if there is one. -/
inductive TakesNames (tree : FileTree) (options : ScanOptions) (root : Path) : List String → Prop where
  | given {path : Path} {text : String} (chosen : options.surfacesFile = some path)
      (holds : tree.readText path = .ok text) : TakesNames tree options root (Text.entries text)
  | found {text : String} (unchosen : options.surfacesFile = none)
      (present : tree.isFile (Path.join root surfacesFileName) = true)
      (holds : tree.readText (Path.join root surfacesFileName) = .ok text) :
      TakesNames tree options root (Text.entries text)
  | absent (unchosen : options.surfacesFile = none)
      (missing : tree.isFile (Path.join root surfacesFileName) = false) :
      TakesNames tree options root []

theorem listedSurfaces_eq_ok_iff {path : Path} :
    listedSurfaces tree (some path) = .ok listed ↔
      ∃ text, tree.readText path = .ok text ∧ listed = Text.entries text := by
  rw [listedSurfaces]
  cases tree.readText path <;> simp [eq_comm]

theorem listedSurfaces_eq_ok_iff_takesNames :
    listedSurfaces tree (options.surfacesFile <|> rootFile? tree root surfacesFileName) = .ok listed ↔
      TakesNames tree options root listed := by
  constructor
  · intro read
    cases chosen : options.surfacesFile with
    | some path =>
        rw [chosen] at read
        obtain ⟨text, holds, rfl⟩ := listedSurfaces_eq_ok_iff.1 read
        exact .given chosen holds
    | none =>
        rw [chosen] at read
        cases present : tree.isFile (Path.join root surfacesFileName) with
        | true =>
            simp only [rootFile?, present, if_true] at read
            obtain ⟨text, holds, rfl⟩ := listedSurfaces_eq_ok_iff.1 read
            exact .found chosen present holds
        | false =>
            simp only [rootFile?, present] at read
            cases read
            exact .absent chosen present
  · rintro (⟨chosen, holds⟩ | ⟨unchosen, present, holds⟩ | ⟨unchosen, missing⟩)
    · rw [chosen]
      exact listedSurfaces_eq_ok_iff.2 ⟨_, holds, rfl⟩
    · simp only [unchosen, rootFile?, present, if_true]
      exact listedSurfaces_eq_ok_iff.2 ⟨_, holds, rfl⟩
    · simp only [unchosen, rootFile?, missing]
      rfl

/-- The names of the list file are determined. -/
theorem TakesNames.unique {other : List String} (takes : TakesNames tree options root listed)
    (otherTakes : TakesNames tree options root other) : listed = other := by
  rw [← listedSurfaces_eq_ok_iff_takesNames] at takes otherTakes
  rw [takes] at otherTakes
  exact Except.ok.inj otherTakes

/-! ## The plan -/

/-- A plan is made for the root of the options, with the names that are left of theirs and those of the
list file when repetitions are left out. -/
theorem surfaces_of_plan (planned : options.plan tree = .ok plan) :
    options.root = some plan.root ∧ ∃ listed, TakesNames tree options plan.root listed ∧
      plan.surfaces = (options.surfaces ++ listed).eraseDups := by
  unfold ScanOptions.plan at planned
  split at planned
  · cases planned
  · next root known =>
      obtain ⟨listed, read, made⟩ := Outcome.bind_eq_ok_iff.1 planned
      cases made
      exact ⟨known, listed, listedSurfaces_eq_ok_iff_takesNames.1 read, rfl⟩

/-- A scan can be planned if it has a root and its list file can be read. -/
theorem exists_plan_iff :
    (∃ plan, options.plan tree = .ok plan) ↔
      ∃ root listed, options.root = some root ∧ TakesNames tree options root listed := by
  constructor
  · rintro ⟨plan, planned⟩
    obtain ⟨known, listed, takes, _⟩ := surfaces_of_plan planned
    exact ⟨plan.root, listed, known, takes⟩
  · rintro ⟨root, listed, known, takes⟩
    unfold ScanOptions.plan
    rw [known]
    exact ⟨_, Outcome.bind_eq_ok_iff.2
      ⟨listed, listedSurfaces_eq_ok_iff_takesNames.2 takes, rfl⟩⟩

/-- Two list files with a line feed between them list what the first lists and then what the second lists,
the names of a list file can be written as a list file again, and an exclusion list lists the same names
as a surface list with its text. A plan, which is made whenever there is a root and the list file can be
read, has each name of the options and of the list file once, in the order in which they occur first. -/
theorem surfaceLists_joined_once :
    (∀ front back : String,
      Text.entries (front ++ "\n" ++ back) = Text.entries front ++ Text.entries back) ∧
    (∀ text : String, Text.entries ("\n".intercalate (Text.entries text)) = Text.entries text) ∧
    (∀ (dropObjectMethods : Bool) (text : String),
      (∀ name, (ExclusionList.ofText dropObjectMethods text).listed.contains name = true ↔
        name ∈ Text.entries text) ∧
      (ExclusionList.ofText dropObjectMethods text).listed.size =
        (Text.entries text).eraseDups.length) ∧
    ∀ (tree : FileTree) (options : ScanOptions),
      ((∃ plan, options.plan tree = .ok plan) ↔
        ∃ root listed, options.root = some root ∧ TakesNames tree options root listed) ∧
      ∀ plan, options.plan tree = .ok plan →
        options.root = some plan.root ∧ ∃ listed, TakesNames tree options plan.root listed ∧
          FirstOccurrences (options.surfaces ++ listed) plan.surfaces := by
  refine ⟨Text.entries_join, Text.entries_intercalate_entries, ?_, ?_⟩
  · intro dropObjectMethods text
    exact ⟨fun name => ExclusionList.contains_listed_iff, ExclusionList.size_listed _ text⟩
  · intro tree options
    refine ⟨exists_plan_iff, fun plan planned => ?_⟩
    obtain ⟨known, listed, takes, surfaces⟩ := surfaces_of_plan planned
    refine ⟨known, listed, takes, ?_⟩
    rw [surfaces]
    exact firstOccurrences_eraseDups _

/-! ## A list file in the scan root -/

/-- A list file with a comment, with both kinds of line ends and with a name that the
options have as well. -/
def listText : String :=
  "# api\r\n x.C\nx.A\r\nx.D"

/-- A file tree with a scan root that holds the list file. -/
def listTree : FileTree :=
  ⟨.folder [("r", .folder [("coverage.txt", .file (Bytes.ofText listText))])], []⟩

/-- Options that name a surface twice and leave the list file to be found. -/
def listOptions : ScanOptions :=
  { root := some "r", surfaces := ["x.B", "x.A", "x.B"] }

theorem stat_listTree :
    listTree.stat (Path.join "r" surfacesFileName) = .ok (.file (Bytes.ofText listText)) := by
  have path : Path.join "r" surfacesFileName = "r/coverage.txt" := by decide
  have segments : Path.segments "r/coverage.txt" = ["r", "coverage.txt"] := by decide
  have folder : IsMemberName "r" := ⟨by decide, by decide, by decide⟩
  have file : IsMemberName "coverage.txt" := ⟨by decide, by decide, by decide⟩
  rw [path, FileTree.stat_eq_ok_iff, segments]
  exact ⟨⟨rfl, by decide, by decide⟩, ["r", "coverage.txt"],
    .into rfl folder rfl nofun (.into rfl file rfl nofun .here)⟩

theorem surfaceLists_joined_once_listTree :
    ∃ plan, listOptions.plan listTree = .ok plan ∧
      TakesNames listTree listOptions "r" ["x.C", "x.A", "x.D"] ∧
      plan.surfaces = ["x.B", "x.A", "x.C", "x.D"] ∧
      FirstOccurrences ["x.B", "x.A", "x.B", "x.C", "x.A", "x.D"] plan.surfaces := by
  have present : listTree.isFile (Path.join "r" surfacesFileName) = true :=
    FileTree.isFile_eq_true_iff.2 ⟨_, stat_listTree⟩
  have holds : listTree.readText (Path.join "r" surfacesFileName) = .ok listText :=
    FileTree.readText_eq_ok_iff.2 (FileTree.read_eq_ok_iff.2 stat_listTree)
  have names : Text.entries listText = ["x.C", "x.A", "x.D"] := by decide
  have takes : TakesNames listTree listOptions "r" ["x.C", "x.A", "x.D"] :=
    names ▸ .found rfl present holds
  obtain ⟨_, _, _, plans⟩ := surfaceLists_joined_once
  obtain ⟨accepted, surfaces⟩ := plans listTree listOptions
  obtain ⟨plan, planned⟩ := accepted.2 ⟨"r", _, rfl, takes⟩
  obtain ⟨known, listed, takesListed, firsts⟩ := surfaces plan planned
  rw [← Option.some.inj known] at takesListed
  cases takes.unique takesListed
  refine ⟨plan, planned, takes, ?_, firsts⟩
  exact (firsts.unique (firstOccurrences_eraseDups _)).trans (by decide)

end ScanOptions

end ApiCoverage
