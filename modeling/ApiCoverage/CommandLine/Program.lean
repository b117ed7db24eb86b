import ApiCoverage.CommandLine.Command
import ApiCoverage.ClassFile.Inspection
import ApiCoverage.Project.Plan

/-!
# The program

What the program does with its arguments on a file tree: its exit status, what it prints, and the
file tree afterwards. A misuse of the command line ends with status 2, any other failure with
status 1.
-/

namespace ApiCoverage.CommandLine

/-- The result of a run of the program. -/
structure Outcome where
  status : UInt8
  stdout : String
  /-- The lines of the error output. -/
  stderr : List String
  /-- The file tree after the run. -/
  tree : FileTree
  /-- The file that was written. -/
  written : Option Path

/-- The name and the version of the program. -/
def versionLine : String := "apicov 0.1.0"

/-- How the program is used. -/
def usage : List String :=
  ["Usage: apicov [-v] scan [ROOT] [SURFACE]... [SWITCH]...",
    "       apicov [-v] inspect FILE",
    "",
    "Switches of a scan:",
    "      --config FILE            project file (apicov.toml)",
    "      --surfaces-file FILE     list of surface names",
    "      --exclusions FILE        list of excluded methods",
    "      --declarations FILE...   surface declarations",
    "      --classpath FOLDER...    folders with surface class files",
    "      --format FORMAT          text, csv, html or json",
    "  -o, --output PATH            file or folder for the report",
    "      --title TEXT             heading of the page",
    "      --link-base TEXT         start of links to source files",
    "      --keep-object-methods    track equals, hashCode and toString too"]

/-- The lines in which a failure is shown. -/
def failureLines : Failure → List String
  | .manifest path (.malformed fault) => [s!"Error: invalid {path}: {fault.message}"]
  | .manifest path fault => [s!"error[manifest]: {fault.words}", s!"  --> {path}"]
  | .configuration fault =>
      match fault.path? with
      | some path => [s!"error: {fault.words}", s!"  --> {path}"]
      | none => [s!"error: {(Failure.configuration fault).message}"]
  | failure => [s!"error: {failure.message}"]

namespace Outcome

/-- A run that only prints. -/
def printed (tree : FileTree) (text : String) : Outcome :=
  ⟨0, text, [], tree, none⟩

/-- A run that fails. -/
def failed (tree : FileTree) (failure : Failure) : Outcome :=
  ⟨1, "", failureLines failure, tree, none⟩

/-- A run with arguments that make no sense. -/
def misused (tree : FileTree) (cause : Misuse) : Outcome :=
  ⟨2, "", cause.words :: usage, tree, none⟩

end Outcome

/-- The settings of the project file: the one that is asked for, or the one in the working folder,
where there is one. -/
def projectOptions (tree : FileTree) : Option Path → Except Failure ScanOptions
  | some path => ScanOptions.load tree path
  | none =>
      if tree.isFile projectFileName then ScanOptions.load tree projectFileName else .ok {}

/-- The line that tells how many files were skipped, if any were. -/
def skippedLines (log : ScanLog) : List String :=
  let count := log.skippedUnits.length
  if count = 0 then [] else [s!"warning: {count} unit(s) skipped; run with -v for details"]

/-- The lines on single skipped files. -/
def detailLines (log : ScanLog) : List String :=
  log.events.filterMap fun
    | .unitSkipped path reason => some s!"skipped {path}: {reason.words}"
    | _ => none

/-- Carries out a plan and prints or writes the report. -/
def runPlan (verbose : Bool) (tree : FileTree) (plan : ScanPlan) : Outcome :=
  let result := plan.run tree
  match result.outcome with
  | .error failure => .failed tree failure
  | .ok report =>
      match plan.write tree report with
      | .error failure => .failed tree failure
      | .ok after =>
          let details := if verbose then detailLines result.log else []
          let skipped := details ++ skippedLines result.log
          match plan.output with
          | none => ⟨0, plan.print report, skipped, after, none⟩
          | some path => ⟨0, "", skipped ++ [s!"report written to {path}"], after, some path⟩

/-- Scans with the settings of the project file and those of the command line laid over them. -/
def runScan (verbose : Bool) (tree : FileTree) (projectFile : Option Path)
    (options : ScanOptions) : Outcome :=
  let plan := do
    let base ← projectOptions tree projectFile
    (base.overlay options).plan tree
  match plan with
  | .error failure => .failed tree failure
  | .ok plan => runPlan verbose tree plan

/-- Lists a class file. -/
def runInspect (tree : FileTree) (path : Path) : Outcome :=
  match tree.read path with
  | .error fault => .failed tree (.file path fault)
  | .ok bytes =>
      match ClassFile.ClassUnit.ofBytes bytes with
      | .error fault => .failed tree (.unit path fault)
      | .ok unit => .printed tree unit.inspection

/-- Runs the program. -/
def run (tree : FileTree) (arguments : List String) : Outcome :=
  match Command.ofArguments arguments with
  | .error cause => .misused tree cause
  | .ok .help => .printed tree (Text.unlines usage)
  | .ok .version => .printed tree (Text.unlines [versionLine])
  | .ok (.scan verbose projectFile options) => runScan verbose tree projectFile options
  | .ok (.inspect _ file) => runInspect tree file

end ApiCoverage.CommandLine
