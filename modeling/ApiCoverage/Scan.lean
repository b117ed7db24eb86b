import ApiCoverage.Scan.Tracking
import ApiCoverage.Scan.Usage

/-!
# Scanning a folder

A scan chooses what is tracked and then walks a folder. Every file with the extension of class files
is either scanned or logged as skipped; links are not followed, and other files mean nothing. A
folder whose members cannot be listed is logged as well.
-/

namespace ApiCoverage

open ClassFile (ClassUnit)

/-- What a scan makes of one step of its walk. -/
inductive Verdict where
  | ignored
  | skipped (reason : SkipReason)
  | scanned (unit : ClassUnit)

/-- What one visit adds to the log and to the report of a scan. -/
structure Contribution where
  log : ScanLog
  usages : List Usage
  deriving DecidableEq, Repr

namespace Verdict

/-- The extension of class files. -/
def unitExtension : String := "class"

/-- The verdict on the content of a file with the extension of class files. -/
def ofBytes (content : Bytes) : Verdict :=
  if !ClassFile.isClassFile content then .skipped .notClassFile
  else
    match ClassUnit.ofBytes content with
    | .error fault => .skipped (.corrupt fault)
    | .ok unit => .scanned unit

/-- The verdict on an entry with the extension of class files. -/
def ofEntry (path : Path) : FileEntry → Verdict
  | .link _ => .skipped .linkNotFollowed
  | .folder _ => .ignored
  | .file content =>
      if Path.isTooLong path then .skipped (.unreadable .nameTooLong) else ofBytes content

/-- The verdict on a step of a walk. -/
def ofVisit : Visit → Verdict
  | .met path entry =>
      if Path.extension? path != some unitExtension then .ignored else ofEntry path entry
  | .unlisted path fault => .skipped (.unlisted path fault)

/-- What a verdict on a path adds to a scan. -/
def contribution (tracked : TrackedSurfaces) (path : Path) : Verdict → Contribution
  | .ignored => ⟨.empty, []⟩
  | .skipped reason => ⟨.event (.unitSkipped path reason), []⟩
  | .scanned unit =>
      let scan := UnitScan.ofUnit tracked unit
      ⟨⟨scan.events, 1⟩, scan.usages⟩

end Verdict

namespace Scan

/-- Goes through the visits of a walk. -/
def visitAll (tracked : TrackedSurfaces) (report : CoverageReport) :
    List Visit → ScanLog × CoverageReport
  | [] => (.empty, report)
  | visit :: rest =>
      let added := (Verdict.ofVisit visit).contribution tracked visit.path
      let (log, report) := visitAll tracked (report.recordAll added.usages) rest
      (added.log ++ log, report)

/-- Checks that the root of a scan is a folder. -/
def checkRoot (tree : FileTree) (root : Path) : Except Failure Unit :=
  match tree.stat root with
  | .error fault => .error (.configuration (.rootUnreachable root fault))
  | .ok entry =>
      if entry.isFolder then .ok () else .error (.configuration (.rootNotFolder root))

/-- Scans the folder at a path for uses of the named surfaces. -/
def run (tree : FileTree) (catalog : SurfaceCatalog) (policy : ExclusionPolicy)
    (names : List String) (root : Path) : Logged CoverageReport := do
  Logged.ofExcept (checkRoot tree root)
  let tracked ← TrackedSurfaces.track tree catalog policy names
  match tree.walk root with
  | .error fault => Logged.fail (.file root fault)
  | .ok visits =>
      let (log, report) := visitAll tracked tracked.seedReport visits
      ⟨log, .ok report⟩

end Scan

end ApiCoverage
