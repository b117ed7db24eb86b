import ApiCoverage.ClassFile.Assembly
import ApiCoverage.Proofs.Files.Pruning
import ApiCoverage.Proofs.Scan.Accounting

/-!
# Scanning a tree without the skipped files

A run does not depend on the files that it skips: a tree that lacks some of them, wherever they stand,
gives the same report. Links are skipped as well, but a link may lead to the class file of a surface or
to the root of the scan. So links below the root can be missed as long as the surfaces are the same
without them.
-/

namespace ApiCoverage

open ClassFile (ClassUnit)

/-- A file that does not open as a class file. -/
inductive FileEntry.IsForeign : FileEntry → Prop where
  | intro {content : Bytes} (refused : ∀ unit, ClassUnit.ofBytes content ≠ .ok unit) :
      IsForeign (.file content)

/-- An entry that a run never scans, whatever its path: a link or a file that does not open. -/
inductive FileEntry.IsUnscanned : FileEntry → Prop where
  | link {target : Path} : IsUnscanned (.link target)
  | foreign {entry : FileEntry} (foreign : entry.IsForeign) : IsUnscanned entry

namespace FileEntry

theorem IsForeign.isFile {entry : FileEntry} (foreign : entry.IsForeign) : entry.isFile = true := by
  cases foreign
  rfl

theorem IsUnscanned.isFolder_eq {entry : FileEntry} (unscanned : entry.IsUnscanned) :
    entry.isFolder = false := by
  cases unscanned with
  | link => rfl
  | foreign foreign =>
      cases foreign
      rfl

end FileEntry

theorem Scan.unit?_of_isUnscanned {path : Path} {entry : FileEntry}
    (unscanned : entry.IsUnscanned) : unit? (path, entry) = none := by
  cases unscanned with
  | link => rfl
  | foreign foreign =>
      obtain @⟨content, refused⟩ := foreign
      cases opened : ClassUnit.ofBytes content with
      | ok unit => exact absurd opened (refused unit)
      | error fault => simp [unit?, opened, Except.toOption]

/-! ## Choosing surfaces -/

section Choosing

variable {tree less : FileTree} {catalog : SurfaceCatalog} {policy : ExclusionPolicy} {name : String}
  {decl : SurfaceDecl}

/-- A class file that gives a declaration gives it without foreign files as well. -/
theorem SurfaceCatalog.readUnit_left (pruned : tree.Pruned FileEntry.IsForeign less) {path : Path}
    (given : readUnit tree name path = .ok decl) :
    less.isFile path = true ∧ readUnit less name path = .ok decl := by
  rw [readUnit] at given ⊢
  cases content : tree.read path with
  | error fault =>
      rw [content] at given
      cases given
  | ok bytes =>
      rw [content] at given
      have wanted : ¬ FileEntry.IsForeign (.file bytes) := by
        rintro ⟨refused⟩
        cases opened : ClassUnit.ofBytes bytes with
        | ok unit => exact refused unit opened
        | error fault =>
            simp only [opened] at given
            cases given
      have left := pruned.read_left (fun _ foreign => foreign.isFile) content wanted
      rw [left]
      exact ⟨FileTree.isFile_eq_true_iff.2 ⟨bytes, FileTree.read_eq_ok_iff.1 left⟩, given⟩

/-- A name that has a declaration keeps it without foreign files: the file on the classpath that counts
is none of them, and no other one comes to stand before it. -/
theorem SurfaceCatalog.resolve_left (pruned : tree.Pruned FileEntry.IsForeign less)
    (resolved : catalog.resolve tree name = .ok decl) : catalog.resolve less name = .ok decl := by
  rw [resolve] at resolved ⊢
  cases declared : catalog.declared.get? name with
  | some known => rwa [declared] at resolved
  | none =>
      rw [declared] at resolved
      dsimp only at resolved ⊢
      split at resolved
      · next path found =>
          rcases readUnit_left pruned resolved with ⟨stays, given⟩
          rcases List.find?_eq_some_iff_append.1 found with ⟨_, front, back, split, others⟩
          have first : (catalog.classpath.map fun folder =>
              Path.join folder (unitPath name)).find? less.isFile = some path := by
            refine List.find?_eq_some_iff_append.2 ⟨stays, front, back, split, ?_⟩
            intro other member
            have absent := others other member
            rw [Bool.not_eq_true'] at absent ⊢
            rw [← Bool.not_eq_true] at absent ⊢
            exact mt pruned.isFile_of_isFile_left absent
          rw [first]
          exact given
      · cases resolved

/-- Surfaces that can be tracked are tracked alike without foreign files. -/
theorem TrackedSurfaces.outcome_track_left (pruned : tree.Pruned FileEntry.IsForeign less)
    {names : List String} {tracked : TrackedSurfaces}
    (chosen : (track tree catalog policy names).outcome = .ok tracked) :
    (track less catalog policy names).outcome = .ok tracked := by
  rw [outcome_track_eq_ok_iff] at chosen ⊢
  generalize TrackedSurfaces.empty = before at chosen ⊢
  induction names generalizing before with
  | nil => exact chosen
  | cons name rest ih =>
      rw [outcome_trackNames_cons_eq_ok_iff] at chosen ⊢
      rcases chosen with ⟨decl, ⟨resolved, readable⟩, chosen⟩
      exact ⟨decl, ⟨SurfaceCatalog.resolve_left pruned resolved, readable⟩, ih _ chosen⟩

end Choosing

/-! ## Running -/

namespace Scan

variable {tree less : FileTree} {catalog : SurfaceCatalog} {policy : ExclusionPolicy}
  {names : List String} {root : Path} {report : CoverageReport} {tracked : TrackedSurfaces}
  {unwanted : FileEntry → Prop} {members kept : List (String × FileEntry)}

theorem unit?_of_pruned {path : Path} {entry left : FileEntry}
    (pruned : entry.Pruned unwanted left) : unit? (path, left) = unit? (path, entry) := by
  cases pruned with
  | leaf _ => rfl
  | folder _ _ => rfl

theorem Reachable.thinned {entries others : List PlacedEntry} (reachable : Reachable entries)
    (thinned : Thinned unwanted (FileEntry.Pruned unwanted) entries others) :
    Reachable others := by
  constructor
  · intro path inner member
    rcases thinned.exists_mem member with ⟨entry, before, pruned⟩
    cases pruned with
    | leaf leaf => cases leaf
    | folder _ _ => exact reachable.listed path _ before
  · intro path content member
    rcases thinned.exists_mem member with ⟨entry, before, pruned⟩
    cases pruned with
    | leaf _ => exact reachable.readable path content before

/-- A run in what is left of a folder records the class files of the whole folder. -/
theorem outcome_run_of_thinned (unscanned : ∀ entry, unwanted entry → entry.IsUnscanned)
    (thinned : Thinned unwanted (FileEntry.Pruned unwanted) members kept)
    (reachable : Reachable (folderContents root members))
    (stands : less.statLink root = .ok (.folder kept))
    (chosen : (TrackedSurfaces.track less catalog policy names).outcome = .ok tracked) :
    (run less catalog policy names root).outcome =
      .ok (tracked.seedReport.scanAll tracked ((folderContents root members).filterMap unit?)) := by
  have contents := folderContents_thinned
    (fun entry needless => (unscanned entry needless).isFolder_eq) root members kept thinned
  have units_eq : (folderContents root kept).filterMap unit? =
      (folderContents root members).filterMap unit? :=
    contents.filterMap_eq (fun _ _ needless => unit?_of_isUnscanned (unscanned _ needless))
      fun _ _ _ pruned => unit?_of_pruned pruned
  rcases accounts_run stands (reachable.thinned contents) chosen with ⟨report, succeeds, accounts⟩
  rw [succeeds, accounts.recorded, units_eq]

/-- A run that succeeds in a folder accounts for every entry below it: each file or link with the
extension of class files is either scanned or logged as skipped, the links, the files without the file
signature and those that do not open being logged in the order of the walk, and the report is made of
the others. So the report stays the same without files that do not open, wherever in the tree they
stand. It also stays the same without such files and links below the root, if the root and the surfaces
are still found. -/
theorem accounts_of_run (stands : tree.statLink root = .ok (.folder members))
    (reachable : Reachable (folderContents root members))
    (succeeds : (run tree catalog policy names root).outcome = .ok report) :
    ∃ tracked, (TrackedSurfaces.track tree catalog policy names).outcome = .ok tracked ∧
      Accounts tracked (folderContents root members) (run tree catalog policy names root).log
        tracked.seedReport report ∧
      (∀ less, tree.Pruned FileEntry.IsForeign less →
        (run less catalog policy names root).outcome = .ok report) ∧
      ∀ less kept, Thinned FileEntry.IsUnscanned (FileEntry.Pruned FileEntry.IsUnscanned)
          members kept →
        less.statLink root = .ok (.folder kept) →
        (TrackedSurfaces.track less catalog policy names).outcome = .ok tracked →
        (run less catalog policy names root).outcome = .ok report := by
  rcases exists_track_of_run succeeds with ⟨tracked, chosen⟩
  rcases accounts_run stands reachable chosen with ⟨same, again, accounts⟩
  cases succeeds.symm.trans again
  refine ⟨tracked, chosen, accounts, ?_, ?_⟩
  · intro less pruned
    rcases pruned.exists_statLink_left (fun _ foreign => foreign.isFile) stands with
      ⟨kept, thinned, standsLess⟩
    rw [accounts.recorded]
    exact outcome_run_of_thinned (fun _ foreign => .foreign foreign) thinned reachable standsLess
      (TrackedSurfaces.outcome_track_left pruned chosen)
  · intro less kept thinned standsLess chosenLess
    rw [accounts.recorded]
    exact outcome_run_of_thinned (fun _ unscanned => unscanned) thinned reachable standsLess
      chosenLess

/-! ## A folder with all kinds of entries -/

/-- Members of a folder: a class file, a link to it, a file with the extension of class files that is
none, another file, and a folder with a class file that is cut short. -/
def mixedMembers : List (String × FileEntry) :=
  [("A.class", .file (ClassFile.ClassDraft.ofKind .classType "A").assemble),
    ("b.class", .link "A.class"),
    ("c.class", .file [1, 2]),
    ("d.txt", .file []),
    ("e", .folder [("F.class", .file (Bytes.ofUInt32 ClassFile.signature))])]

/-- The members without the files that do not open. -/
def openingMembers : List (String × FileEntry) :=
  [("A.class", .file (ClassFile.ClassDraft.ofKind .classType "A").assemble),
    ("b.class", .link "A.class"),
    ("e", .folder [])]

/-- A file tree with one folder, which has the given members. -/
def singleFolder (members : List (String × FileEntry)) : FileTree :=
  ⟨.folder [("r", .folder members)], []⟩

theorem statLink_of_lookup {members inner : List (String × FileEntry)}
    (held : members.lookup "r" = some (.folder inner)) :
    FileTree.statLink ⟨.folder members, []⟩ "r" = .ok (.folder inner) := by
  have segments : Path.segments "r" = ["r"] := by decide
  have named : IsMemberName "r" := ⟨by decide, by decide, by decide⟩
  have listed : (FileEntry.folder members).at? [] = some (.folder members) := rfl
  have inside : (FileEntry.folder members).at? ["r"] = some (.folder inner) :=
    FileEntry.at?_concat listed held
  refine FileTree.statLink_eq_ok_iff.2 ⟨⟨rfl, rfl, by decide⟩, ["r"], ?_⟩
  rw [segments, ← inside]
  exact .into listed named held nofun .here

theorem Reachable.of_short {entries : List PlacedEntry}
    (short : ∀ placed ∈ entries, Path.isTooLong placed.1 = false) : Reachable entries :=
  ⟨fun _ _ member => short _ member, fun _ _ member _ => short _ member⟩

theorem reachable_mixedMembers : Reachable (folderContents "r" mixedMembers) :=
  .of_short (by decide)

theorem isForeign_of_isOk_eq_false {content : Bytes}
    (refused : (ClassUnit.ofBytes content).isOk = false) : FileEntry.IsForeign (.file content) := by
  constructor
  intro unit opened
  rw [opened] at refused
  cases refused

theorem pruned_openingMembers :
    (singleFolder mixedMembers).Pruned FileEntry.IsForeign (singleFolder openingMembers) := by
  have cut : Thinned FileEntry.IsForeign (FileEntry.Pruned FileEntry.IsForeign)
      [("F.class", .file (Bytes.ofUInt32 ClassFile.signature))] [] :=
    .dropped (isForeign_of_isOk_eq_false (by decide)) .nil
  have opening : Thinned FileEntry.IsForeign (FileEntry.Pruned FileEntry.IsForeign) mixedMembers
      openingMembers :=
    .kept (.leaf rfl) <| .kept (.leaf rfl) <|
      .dropped (isForeign_of_isOk_eq_false (by decide)) <|
      .dropped (isForeign_of_isOk_eq_false (by decide)) <|
      .kept (.folder (by decide) cut) .nil
  exact ⟨.folder (by decide) (.kept (.folder (by decide) opening) .nil), rfl⟩

theorem accounts_of_run_mixedMembers :
    (singleFolder mixedMembers).statLink "r" = .ok (.folder mixedMembers) ∧
      Reachable (folderContents "r" mixedMembers) ∧
      (folderContents "r" mixedMembers).countP isUnitEntry = 4 ∧
      (folderContents "r" mixedMembers).filterMap skip? =
        [("r/b.class", .linkNotFollowed), ("r/c.class", .notClassFile),
          ("r/e/F.class", .corrupt (.truncated .header 4 2 0))] ∧
      ∃ report tracked,
        (run (singleFolder mixedMembers) (TrackedSurfaces.shopCatalog []) (baseExclusion false)
          ["a.Shop"] "r").outcome = .ok report ∧
        Accounts tracked (folderContents "r" mixedMembers)
          (run (singleFolder mixedMembers) (TrackedSurfaces.shopCatalog []) (baseExclusion false)
            ["a.Shop"] "r").log tracked.seedReport report ∧
        (run (singleFolder openingMembers) (TrackedSurfaces.shopCatalog []) (baseExclusion false)
          ["a.Shop"] "r").outcome = .ok report := by
  have stands : (singleFolder mixedMembers).statLink "r" = .ok (.folder mixedMembers) :=
    statLink_of_lookup rfl
  have offers : TrackedSurfaces.Offers (singleFolder mixedMembers)
      (TrackedSurfaces.shopCatalog []) (Text.trim "a.Shop") ⟨.classType, [], []⟩ := ⟨rfl, nofun⟩
  have chosen := @TrackedSurfaces.outcome_track_singleton _ _ (baseExclusion false) _ _ offers
  rcases accounts_run stands reachable_mixedMembers chosen with ⟨report, succeeds, _⟩
  rcases accounts_of_run stands reachable_mixedMembers succeeds with
    ⟨tracked, _, accounts, opening, _⟩
  exact ⟨stands, reachable_mixedMembers, by decide +kernel, by decide +kernel, report, tracked,
    succeeds, accounts, opening _ pruned_openingMembers⟩

/-! ## A surface behind a skipped link -/

/-- The members of a folder with a class file. -/
def classMembers : List (String × FileEntry) :=
  [("S.class", .file (ClassFile.ClassDraft.ofKind .classType "S").assemble)]

/-- The members of a folder with a link to the class file. -/
def linkMembers : List (String × FileEntry) :=
  [("S.class", .link "../q/S.class")]

/-- A file tree with the folder of the class file and another one. -/
def twoFolders (members : List (String × FileEntry)) : FileTree :=
  ⟨.folder [("q", .folder classMembers), ("r", .folder members)], []⟩

/-- The catalog that takes surfaces from class files in the other folder. -/
def linkedCatalog : SurfaceCatalog :=
  ⟨.empty, ["r"]⟩

theorem isUsable_linked : IsUsable "r/S.class" :=
  ⟨rfl, by decide, by decide⟩

theorem segments_linked : Path.segments "r/S.class" = ["r", "S.class"] := by
  decide

theorem read_linkMembers : (twoFolders linkMembers).read "r/S.class" =
    .ok (ClassFile.ClassDraft.ofKind .classType "S").assemble := by
  have folder : IsMemberName "r" := ⟨by decide, by decide, by decide⟩
  have other : IsMemberName "q" := ⟨by decide, by decide, by decide⟩
  have unit : IsMemberName "S.class" := ⟨by decide, by decide, by decide⟩
  have target : Path.segments "../q/S.class" = ["..", "q", "S.class"] := by decide
  have top : (twoFolders linkMembers).root.at? [] =
    some (.folder [("q", .folder classMembers), ("r", .folder linkMembers)]) := rfl
  have inner : (twoFolders linkMembers).root.at? ["r"] = some (.folder linkMembers) := rfl
  have outer : (twoFolders linkMembers).root.at? ["q"] = some (.folder classMembers) := rfl
  refine FileTree.read_eq_ok_iff.2 (FileTree.stat_eq_ok_iff.2
    ⟨isUsable_linked, ["q", "S.class"], ?_⟩)
  rw [segments_linked]
  refine .into top folder rfl nofun (.through inner unit rfl rfl ?_)
  rw [target]
  exact .up inner (.into top other rfl nofun (.into outer unit rfl nofun .here))

theorem isFile_unlinked : (twoFolders []).isFile "r/S.class" = false := by
  have folder : IsMemberName "r" := ⟨by decide, by decide, by decide⟩
  have unit : IsMemberName "S.class" := ⟨by decide, by decide, by decide⟩
  have top : (twoFolders []).root.at? [] =
    some (.folder [("q", .folder classMembers), ("r", .folder [])]) := rfl
  have inner : (twoFolders []).root.at? ["r"] = some (.folder []) := rfl
  have located : (twoFolders []).locate true "r/S.class" = .ok ⟨["r", "S.class"], none⟩ := by
    refine FileTree.locate_eq_ok_iff.2 ⟨isUsable_linked, ?_⟩
    rw [segments_linked]
    exact .into top folder rfl nofun (.missing inner unit rfl)
  rw [FileTree.isFile, FileTree.stat, located]
  rfl

/-- The catalog looks for the surface at one path. -/
theorem resolve_linkedCatalog (tree : FileTree) :
    linkedCatalog.resolve tree "S" =
      if tree.isFile "r/S.class" then SurfaceCatalog.readUnit tree "S" "r/S.class"
      else .error (.configuration (.unknownSurface "S")) := by
  have undeclared : linkedCatalog.declared.get? "S" = none := rfl
  have paths : linkedCatalog.classpath.map (fun folder =>
      Path.join folder (SurfaceCatalog.unitPath "S")) = ["r/S.class"] := by
    decide
  rw [SurfaceCatalog.resolve, undeclared]
  dsimp only
  rw [paths]
  cases file : tree.isFile "r/S.class" with
  | false => rw [List.find?_cons_of_neg (Bool.eq_false_iff.1 file)]; rfl
  | true => rw [List.find?_cons_of_pos file]; rfl

/-- With the link, the surface is declared by the class file behind it. -/
theorem resolve_linkMembers : ∃ unit : ClassUnit, unit.methods = [] ∧
    linkedCatalog.resolve (twoFolders linkMembers) "S" = .ok (.ofUnit unit) := by
  have opened : (ClassUnit.ofBytes (ClassFile.ClassDraft.ofKind .classType "S").assemble).map
      (fun unit => (unit.name, unit.methods)) = .ok ("S", []) := by
    decide +kernel
  rcases Outcome.map_eq_ok_iff.1 opened with ⟨unit, opened, same⟩
  have file : (twoFolders linkMembers).isFile "r/S.class" = true :=
    FileTree.isFile_eq_true_iff.2 ⟨_, FileTree.read_eq_ok_iff.1 read_linkMembers⟩
  refine ⟨unit, (congrArg Prod.snd same).symm, ?_⟩
  rw [resolve_linkedCatalog, if_pos file, SurfaceCatalog.readUnit, read_linkMembers]
  dsimp only
  rw [opened]
  exact if_pos (congrArg Prod.fst same).symm

/-- A run may depend on a link that it skips: without the link, the surface whose class file is behind
it is unknown. -/
theorem run_without_link :
    ∃ report,
      (run (twoFolders linkMembers) linkedCatalog (baseExclusion false) ["S"] "r").outcome =
        .ok report ∧
      (run (twoFolders linkMembers) linkedCatalog (baseExclusion false) ["S"] "r").log.skips =
        [("r/S.class", .linkNotFollowed)] ∧
      (run (twoFolders []) linkedCatalog (baseExclusion false) ["S"] "r").outcome =
        .error (.configuration (.unknownSurface "S")) := by
  have stands : (twoFolders linkMembers).statLink "r" = .ok (.folder linkMembers) :=
    statLink_of_lookup rfl
  have reachable : Reachable (folderContents "r" linkMembers) := .of_short (by decide +kernel)
  have trimmed : Text.trim "S" = "S" := by decide +kernel
  rcases resolve_linkMembers with ⟨unit, methodless, resolved⟩
  have offers : TrackedSurfaces.Offers (twoFolders linkMembers) linkedCatalog (Text.trim "S")
      (.ofUnit unit) := by
    rw [trimmed]
    refine ⟨resolved, ?_⟩
    rw [SurfaceDecl.ofUnit, methodless]
    exact nofun
  have chosen := @TrackedSurfaces.outcome_track_singleton _ _ (baseExclusion false) _ _ offers
  rcases accounts_run stands reachable chosen with ⟨report, succeeds, accounts⟩
  refine ⟨report, succeeds, accounts.skipped.trans (by decide +kernel), ?_⟩
  have empty : (twoFolders []).statLink "r" = .ok (.folder []) := statLink_of_lookup rfl
  have unknown : linkedCatalog.resolve (twoFolders []) (Text.trim "S") =
      .error (.configuration (.unknownSurface "S")) := by
    rw [trimmed, resolve_linkedCatalog, if_neg (Bool.eq_false_iff.1 isFile_unlinked)]
  simp only [run, checkRoot_of_statLink empty, TrackedSurfaces.track, TrackedSurfaces.trackNames, unknown,
    Logged.ofExcept, bind, Logged.andThen]

end Scan

end ApiCoverage
