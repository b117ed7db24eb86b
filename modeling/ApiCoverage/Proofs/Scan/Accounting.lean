import ApiCoverage.Proofs.ClassFile.Sections
import ApiCoverage.Proofs.Files.Walk
import ApiCoverage.Proofs.Scan.ExclusionLog
import ApiCoverage.Proofs.Scan.Run

/-!
# What a run makes of every file

Of the entries below the root of a scan, those with the extension of class files that are files or links
are either scanned or logged as skipped, once each and in the order of the walk. The report comes from
the scanned ones alone.
-/

namespace ApiCoverage

open ClassFile (ClassUnit)

/-! ## What is logged -/

namespace ScanLog

/-- The paths that a log says are skipped, with the reasons. -/
def skips (log : ScanLog) : List (Path × SkipReason) :=
  log.events.filterMap fun
    | .unitSkipped path reason => some (path, reason)
    | _ => none

theorem skips_append (first second : ScanLog) :
    (first ++ second).skips = first.skips ++ second.skips :=
  List.filterMap_append

theorem unitsScanned_append (first second : ScanLog) :
    (first ++ second).unitsScanned = first.unitsScanned + second.unitsScanned :=
  rfl

theorem skippedUnits_append (first second : ScanLog) :
    (first ++ second).skippedUnits = first.skippedUnits ++ second.skippedUnits :=
  List.filterMap_append

theorem length_skippedUnits (log : ScanLog) : log.skippedUnits.length = log.skips.length := by
  have paths : log.skippedUnits = log.skips.map Prod.fst := by
    rw [skippedUnits, skips, List.map_filterMap]
    congr 1
    funext event
    cases event <;> rfl
  rw [paths, List.length_map]

/-- A log says nothing of class files. -/
structure OmitsUnits (log : ScanLog) : Prop where
  skips : log.skips = []
  unitsScanned : log.unitsScanned = 0

theorem OmitsUnits.append {first second : ScanLog} (left : first.OmitsUnits)
    (right : second.OmitsUnits) : (first ++ second).OmitsUnits := by
  constructor
  · rw [skips_append, left.skips, right.skips, List.append_nil]
  · rw [unitsScanned_append, left.unitsScanned, right.unitsScanned]

theorem omitsUnits_empty : empty.OmitsUnits :=
  ⟨rfl, rfl⟩

end ScanLog

/-- A step after another says nothing of class files if neither of the two does. -/
theorem Logged.omitsUnits_bind {α β : Type} {first : Logged α} {second : α → Logged β}
    (left : first.log.OmitsUnits) (right : ∀ value, (second value).log.OmitsUnits) :
    (first >>= second).log.OmitsUnits := by
  change (first.andThen second).log.OmitsUnits
  unfold andThen
  cases first.outcome with
  | error failure => exact left
  | ok value => exact left.append (right value)

theorem TrackedSurface.omitsUnits_trackMethods (policy : ExclusionPolicy) (type : String)
    (kept : OrderedSet MethodKey) (methods : List ClassFile.MethodDecl) :
    (trackMethods policy type kept methods).log.OmitsUnits := by
  induction methods generalizing kept with
  | nil => exact ScanLog.omitsUnits_empty
  | cons method rest ih =>
      unfold trackMethods
      cases Descriptor.decodeOpen method.descriptor with
      | error fault => exact ScanLog.omitsUnits_empty
      | ok signature =>
          cases policy type method with
          | none => exact ih _
          | some reason => exact Logged.omitsUnits_bind ⟨rfl, rfl⟩ fun _ => ih _

namespace TrackedSurfaces

variable {tree : FileTree} {catalog : SurfaceCatalog} {policy : ExclusionPolicy}

theorem omitsUnits_trackNames (tracked : TrackedSurfaces) (names : List String) :
    (trackNames tree catalog policy tracked names).log.OmitsUnits := by
  induction names generalizing tracked with
  | nil => exact ScanLog.omitsUnits_empty
  | cons name rest ih =>
      rw [trackNames]
      refine Logged.omitsUnits_bind ScanLog.omitsUnits_empty fun decl => ?_
      exact Logged.omitsUnits_bind (TrackedSurface.omitsUnits_trackMethods _ _ _ _) fun _ => ih _

/-- Choosing the surfaces says nothing of class files. -/
theorem omitsUnits_track (names : List String) :
    (track tree catalog policy names).log.OmitsUnits := by
  rw [track]
  refine Logged.omitsUnits_bind (omitsUnits_trackNames _ _) fun tracked => ?_
  split
  · exact ⟨rfl, rfl⟩
  · exact ScanLog.omitsUnits_empty

end TrackedSurfaces

/-- The events of a scanned class file are about its methods. -/
theorem UnitScan.skips_events (tracked : TrackedSurfaces) (unit : ClassUnit) :
    (ScanLog.mk (ofUnit tracked unit).events 1).skips = [] := by
  rw [ScanLog.skips, List.filterMap_eq_nil_iff]
  intro event logged
  rw [ofUnit] at logged
  split at logged
  · cases logged
  · rcases List.mem_filterMap.1 logged with ⟨method, _, made⟩
    simp only [ScanEvent.ofMethod?, Option.bind_eq_bind, Option.bind_eq_some_iff] at made
    rcases made with ⟨body, _, fault, _, made⟩
    cases made
    rfl

/-! ## What a walk accounts for -/

namespace Scan

/-- Whether an entry is a file or a link with the extension of class files. -/
def isUnitEntry (placed : PlacedEntry) : Bool :=
  Path.extension? placed.1 == some Verdict.unitExtension && !placed.2.isFolder

/-- The class file at a path, if the entry there is one that opens. -/
def unit? : PlacedEntry → Option ClassUnit
  | (path, .file content) =>
      if Path.extension? path = some Verdict.unitExtension then (ClassUnit.ofBytes content).toOption
      else none
  | (_, .link _) => none
  | (_, .folder _) => none

/-- The reason for which an entry with the extension of class files is skipped, if it is. -/
def skipReason? : FileEntry → Option SkipReason
  | .folder _ => none
  | .link _ => some .linkNotFollowed
  | .file content =>
      if ClassFile.isClassFile content then
        match ClassUnit.ofBytes content with
        | .ok _ => none
        | .error fault => some (.corrupt fault)
      else some .notClassFile

/-- The path and the reason for which an entry is skipped, if it is. -/
def skip? (placed : PlacedEntry) : Option (Path × SkipReason) :=
  if Path.extension? placed.1 = some Verdict.unitExtension then
    (skipReason? placed.2).map fun reason => (placed.1, reason)
  else none

/-- The files among placed entries that have the extension of class files can be read. -/
def Readable (entries : List PlacedEntry) : Prop :=
  ∀ path content, (path, .file content) ∈ entries →
    Path.extension? path = some Verdict.unitExtension → Path.isTooLong path = false

/-- What becomes of an entry that a walk meets: it is none of the entries with the extension, or skipped,
or scanned. -/
inductive Judged (placed : PlacedEntry) : Verdict → Prop where
  | ignored (other : isUnitEntry placed = false) (notSkipped : skip? placed = none)
      (notScanned : unit? placed = none) : Judged placed .ignored
  | skipped {reason : SkipReason} (counted : isUnitEntry placed = true)
      (skipped : skip? placed = some (placed.1, reason)) (notScanned : unit? placed = none) :
      Judged placed (.skipped reason)
  | scanned {unit : ClassUnit} (counted : isUnitEntry placed = true)
      (notSkipped : skip? placed = none) (scanned : unit? placed = some unit) :
      Judged placed (.scanned unit)

/-- Every entry that a walk meets is judged in one of these ways. -/
theorem judged_ofVisit {placed : PlacedEntry} (readable : Readable [placed]) :
    Judged placed (Verdict.ofVisit (.ofPlaced placed)) := by
  rcases placed with ⟨path, entry⟩
  by_cases extension : Path.extension? path = some Verdict.unitExtension
  · have verdict_eq : Verdict.ofVisit (.ofPlaced (path, entry)) = Verdict.ofEntry path entry := by
      simp [Visit.ofPlaced, Verdict.ofVisit, extension]
    rw [verdict_eq]
    cases entry with
    | folder members =>
        exact .ignored (by simp [isUnitEntry, FileEntry.isFolder])
          (by simp [skip?, skipReason?]) rfl
    | link target =>
        exact .skipped (by simp [isUnitEntry, extension, FileEntry.isFolder])
          (by simp [skip?, skipReason?, extension]) rfl
    | file content =>
        have short := readable path content List.mem_cons_self extension
        have counted : isUnitEntry (path, .file content) = true := by
          simp [isUnitEntry, extension, FileEntry.isFolder]
        rw [Verdict.ofEntry, short]
        simp only [Bool.false_eq_true, if_false, Verdict.ofBytes]
        cases opened : ClassUnit.ofBytes content with
        | ok unit =>
            have signed := ClassFile.isClassFile_of_ofBytes opened
            rw [signed]
            exact .scanned counted (by simp [skip?, skipReason?, signed, opened])
              (by simp [unit?, extension, opened, Except.toOption])
        | error fault =>
            have unopened : unit? (path, .file content) = none := by
              simp [unit?, opened, Except.toOption]
            cases signed : ClassFile.isClassFile content with
            | true =>
                exact .skipped counted (by simp [skip?, skipReason?, extension, signed, opened])
                  unopened
            | false =>
                exact .skipped counted (by simp [skip?, skipReason?, extension, signed]) unopened
  · have verdict_eq : Verdict.ofVisit (.ofPlaced (path, entry)) = .ignored := by
      simp [Visit.ofPlaced, Verdict.ofVisit, extension]
    rw [verdict_eq]
    refine .ignored (by simp [isUnitEntry, extension]) (by simp [skip?, extension]) ?_
    cases entry with
    | file content => simp [unit?, extension]
    | folder members => rfl
    | link target => rfl

/-- What a visit adds to a scan says as much of class files as becomes of the entry. -/
structure Adds (placed : PlacedEntry) (tracked : TrackedSurfaces) (added : Contribution) :
    Prop where
  skips : added.log.skips = (skip? placed).toList
  unitsScanned : added.log.unitsScanned = (unit? placed).toList.length
  usages : added.usages = (unit? placed).toList.flatMap fun unit =>
    (UnitScan.ofUnit tracked unit).usages
  counted : added.log.unitsScanned + added.log.skips.length =
    if isUnitEntry placed then 1 else 0

theorem Judged.adds {placed : PlacedEntry} {verdict : Verdict} (judged : Judged placed verdict)
    (tracked : TrackedSurfaces) : Adds placed tracked (verdict.contribution tracked placed.1) := by
  cases judged with
  | ignored other notSkipped notScanned =>
      constructor <;> simp [Verdict.contribution, ScanLog.empty, ScanLog.skips, *]
  | skipped counted skipped notScanned =>
      constructor <;> simp [Verdict.contribution, ScanLog.event, ScanLog.skips, *]
  | @scanned unit counted notSkipped scanned =>
      have skips := UnitScan.skips_events tracked unit
      constructor <;> simp [Verdict.contribution, *]

variable {tree : FileTree} {catalog : SurfaceCatalog} {policy : ExclusionPolicy}
  {names : List String} {root : Path} {report : CoverageReport} {entries : List PlacedEntry}

/-- What a scan of some entries accounts for: every entry with the extension of class files that is a
file or a link counts once, the skipped ones are logged in their order, and the others are recorded. -/
structure Accounts (tracked : TrackedSurfaces) (entries : List PlacedEntry) (log : ScanLog)
    (start report : CoverageReport) : Prop where
  counted : log.unitsScanned + log.skippedUnits.length = entries.countP isUnitEntry
  skipped : log.skips = entries.filterMap skip?
  scanned : log.unitsScanned = (entries.filterMap unit?).length
  recorded : report = start.scanAll tracked (entries.filterMap unit?)

/-- An entry in front adds to what is accounted for. -/
theorem Accounts.cons {tracked : TrackedSurfaces} {placed : PlacedEntry} {rest : List PlacedEntry}
    {added : Contribution} {log : ScanLog} {start report : CoverageReport}
    (adds : Adds placed tracked added)
    (accounts : Accounts tracked rest log (start.recordAll added.usages) report) :
    Accounts tracked (placed :: rest) (added.log ++ log) start report := by
  constructor
  · have counted := adds.counted
    rw [ScanLog.skippedUnits_append, ScanLog.unitsScanned_append, List.length_append,
      ScanLog.length_skippedUnits added.log, List.countP_cons, ← accounts.counted]
    omega
  · rw [ScanLog.skips_append, adds.skips, accounts.skipped]
    cases skipped : skip? placed with
    | none => rw [List.filterMap_cons_none skipped]; rfl
    | some skip => rw [List.filterMap_cons_some skipped]; rfl
  · rw [ScanLog.unitsScanned_append, adds.unitsScanned, accounts.scanned]
    cases scanned : unit? placed with
    | none => rw [List.filterMap_cons_none scanned]; exact Nat.zero_add _
    | some unit => rw [List.filterMap_cons_some scanned]; exact Nat.add_comm _ _
  · have recorded := accounts.recorded
    rw [adds.usages] at recorded
    cases scanned : unit? placed with
    | none =>
        rw [scanned] at recorded
        rw [List.filterMap_cons_none scanned]
        exact recorded
    | some unit =>
        rw [scanned, Option.toList_some, List.flatMap_singleton] at recorded
        rw [List.filterMap_cons_some scanned]
        exact recorded

/-- Going through entries that can be read accounts for them. -/
theorem accounts_visitAll (tracked : TrackedSurfaces) (readable : Readable entries)
    (start : CoverageReport) :
    Accounts tracked entries (visitAll tracked start (entries.map Visit.ofPlaced)).1 start
      (visitAll tracked start (entries.map Visit.ofPlaced)).2 := by
  induction entries generalizing start with
  | nil => exact ⟨rfl, rfl, rfl, rfl⟩
  | cons placed rest ih =>
      have judged : Judged placed (Verdict.ofVisit (.ofPlaced placed)) :=
        judged_ofVisit fun path content member =>
          readable path content (List.mem_singleton.1 member ▸ List.mem_cons_self)
      exact .cons (judged.adds tracked) (ih (fun path content member =>
        readable path content (List.mem_cons_of_mem _ member)) _)

/-- What comes before says nothing of class files, so it makes no difference. -/
theorem Accounts.after {tracked : TrackedSurfaces} {before log : ScanLog}
    {start : CoverageReport} (accounts : Accounts tracked entries log start report)
    (omits : before.OmitsUnits) : Accounts tracked entries (before ++ log) start report := by
  have skips_eq : (before ++ log).skips = log.skips := by
    rw [ScanLog.skips_append, omits.skips, List.nil_append]
  have scanned_eq : (before ++ log).unitsScanned = log.unitsScanned := by
    rw [ScanLog.unitsScanned_append, omits.unitsScanned, Nat.zero_add]
  constructor
  · rw [ScanLog.length_skippedUnits, skips_eq, scanned_eq, ← ScanLog.length_skippedUnits,
      accounts.counted]
  · rw [skips_eq, accounts.skipped]
  · rw [scanned_eq, accounts.scanned]
  · exact accounts.recorded

/-- A folder itself adds nothing to what is accounted for. -/
theorem Accounts.of_cons_folder {tracked : TrackedSurfaces} {path : Path}
    {members : List (String × FileEntry)} {log : ScanLog} {start : CoverageReport}
    (accounts : Accounts tracked ((path, .folder members) :: entries) log start report) :
    Accounts tracked entries log start report := by
  have uncounted : isUnitEntry (path, .folder members) = false := by
    rw [isUnitEntry, FileEntry.isFolder, Bool.not_true, Bool.and_false]
  have unskipped : skip? (path, .folder members) = none := by
    rw [skip?, skipReason?, Option.map_none, ite_self]
  have unscanned : unit? (path, .folder members) = none := rfl
  rcases accounts with ⟨counted, skipped, scanned, recorded⟩
  rw [List.filterMap_cons_none unskipped] at skipped
  rw [List.filterMap_cons_none unscanned] at scanned recorded
  rw [List.countP_cons_of_neg (by rw [uncounted]; exact Bool.false_ne_true)] at counted
  exact ⟨counted, skipped, scanned, recorded⟩

/-- The entries below a root can be listed and read. -/
structure Reachable (entries : List PlacedEntry) : Prop where
  listed : Listed entries
  readable : Readable entries

theorem checkRoot_of_statLink {members : List (String × FileEntry)}
    (stands : tree.statLink root = .ok (.folder members)) : checkRoot tree root = .ok () := by
  rw [checkRoot, FileTree.stat_of_statLink stands]
  rfl

/-- A run in a folder succeeds if its surfaces can be tracked, and accounts for what is below. -/
theorem accounts_run {members : List (String × FileEntry)} {tracked : TrackedSurfaces}
    (stands : tree.statLink root = .ok (.folder members))
    (reachable : Reachable (folderContents root members))
    (chosen : (TrackedSurfaces.track tree catalog policy names).outcome = .ok tracked) :
    ∃ report, (run tree catalog policy names root).outcome = .ok report ∧
      Accounts tracked (folderContents root members) (run tree catalog policy names root).log
        tracked.seedReport report := by
  let met := (root, FileEntry.folder members) :: folderContents root members
  have rooted : (Logged.ofExcept (checkRoot tree root)).outcome = .ok () :=
    checkRoot_of_statLink stands
  have walked : tree.walk root = .ok (met.map Visit.ofPlaced) :=
    FileTree.walk_of_statLink stands reachable.listed
  have readable : Readable met := by
    intro path content member
    rcases List.mem_cons.1 member with same | below
    · cases same
    · exact reachable.readable path content below
  refine ⟨(visitAll tracked tracked.seedReport (met.map Visit.ofPlaced)).2, ?_, ?_⟩
  · rw [run, Logged.outcome_bind_eq_ok_iff]
    refine ⟨(), rooted, Logged.outcome_bind_eq_ok_iff.2 ⟨tracked, chosen, ?_⟩⟩
    rw [walked]
  · rw [run, Logged.log_bind_of_ok rooted, Logged.log_bind_of_ok chosen, walked]
    exact ((accounts_visitAll tracked readable tracked.seedReport).of_cons_folder.after
      (TrackedSurfaces.omitsUnits_track names)).after ScanLog.omitsUnits_empty

/-- The surfaces of a run that succeeds can be tracked. -/
theorem exists_track_of_run
    (succeeds : (run tree catalog policy names root).outcome = .ok report) :
    ∃ tracked, (TrackedSurfaces.track tree catalog policy names).outcome = .ok tracked := by
  rw [run, Logged.outcome_bind_eq_ok_iff] at succeeds
  rcases succeeds with ⟨_, _, steps⟩
  rcases Logged.outcome_bind_eq_ok_iff.1 steps with ⟨tracked, chosen, _⟩
  exact ⟨tracked, chosen⟩

end Scan

end ApiCoverage
