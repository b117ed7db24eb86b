import ApiCoverage.Project.File
import ApiCoverage.Scan

/-!
# Scan plans

A plan is what remains when every open setting of a scan is filled in. The lists of surfaces and of
exclusions are looked for in the scan root unless they are given, a surface that is named more than
once counts once, and a report that goes into a folder gets a file name of its own. A plan is
carried out on a file tree, and the report is printed or written to a file.
-/

namespace ApiCoverage

/-- A scan with all its settings. -/
structure ScanPlan where
  root : Path
  surfaces : List String
  exclusions : Option Path
  declarations : List Path
  classpath : List Path
  keepObjectMethods : Bool
  format : ReportFormat
  output : Option Path
  page : PageSettings
  deriving DecidableEq, Repr

namespace ScanOptions

/-- The surface list that is looked for in the scan root. -/
def surfacesFileName : Path := "coverage.txt"

/-- The exclusion list that is looked for in the scan root. -/
def exclusionsFileName : Path := "exclusions.txt"

/-- The title of a page about a root without a name. -/
def fallbackTitle : String := "apicov"

/-- The name of a report file in a folder. -/
def reportFileName (format : ReportFormat) : Path :=
  s!"apicov-report.{format.extension}"

/-- The path of a file in the scan root, if it is there. -/
def rootFile? (tree : FileTree) (root name : Path) : Option Path :=
  let path := Path.join root name
  if tree.isFile path then some path else none

/-- The names in a surface list, where there is one. -/
def listedSurfaces (tree : FileTree) : Option Path → Except Failure (List String)
  | none => .ok []
  | some path =>
      match tree.readText path with
      | .error fault => .error (.file path fault)
      | .ok text => .ok (Text.entries text)

/-- The file that a report is written to: a folder stands for a file in it. -/
def reportFile (tree : FileTree) (format : ReportFormat) (output : Path) : Path :=
  if tree.isFolder output then Path.join output (reportFileName format) else output

/-- The plan of a scan with these settings. -/
def plan (tree : FileTree) (options : ScanOptions) : Except Failure ScanPlan := do
  match options.root with
  | none => .error (.configuration .noScanRoot)
  | some root =>
      let listed ← listedSurfaces tree
        (options.surfacesFile <|> rootFile? tree root surfacesFileName)
      let format := options.format.getD .plain
      return {
        root
        surfaces := (options.surfaces ++ listed).eraseDups
        exclusions := options.exclusions <|> rootFile? tree root exclusionsFileName
        declarations := options.declarations
        classpath := options.classpath
        keepObjectMethods := options.keepObjectMethods
        format
        output := options.output.map (reportFile tree format)
        page := ⟨options.title.getD ((Path.fileName? root).getD fallbackTitle), options.linkBase⟩ }

end ScanOptions

namespace ScanPlan

/-- Reads declaration files one after another. -/
def declareFiles (tree : FileTree) (catalog : SurfaceCatalog) :
    List Path → Except Failure SurfaceCatalog
  | [] => .ok catalog
  | path :: rest =>
      match catalog.declareFile tree path with
      | .error failure => .error failure
      | .ok catalog => declareFiles tree catalog rest

/-- The surfaces that can be asked for. -/
def catalog (tree : FileTree) (plan : ScanPlan) : Except Failure SurfaceCatalog := do
  let declared ← declareFiles tree .empty plan.declarations
  match plan.classpath.find? fun folder => !tree.isFolder folder with
  | some path => .error (.configuration (.classpathNotFolder path))
  | none => return { declared with classpath := plan.classpath }

/-- The methods that are left out. -/
def exclusionList (tree : FileTree) (plan : ScanPlan) : Except Failure ExclusionList :=
  let ofText := ExclusionList.ofText !plan.keepObjectMethods
  match plan.exclusions with
  | none => .ok (ofText "")
  | some path =>
      match tree.readText path with
      | .error fault => .error (.file path fault)
      | .ok text => .ok (ofText text)

/-- Carries out a scan. -/
def run (tree : FileTree) (plan : ScanPlan) : Logged CoverageReport := do
  let catalog ← Logged.ofExcept (plan.catalog tree)
  let exclusions ← Logged.ofExcept (plan.exclusionList tree)
  Scan.run tree catalog exclusions.policy plan.surfaces plan.root

/-- A report as the plan wants it printed. -/
def print (plan : ScanPlan) (report : CoverageReport) : String :=
  plan.format.print plan.page report

/-- The file tree after a report is written to the file that the plan names. -/
def write (tree : FileTree) (plan : ScanPlan) (report : CoverageReport) :
    Except Failure FileTree :=
  match plan.output with
  | none => .ok tree
  | some path =>
      match tree.write path (Bytes.ofText (plan.print report)) with
      | .error fault => .error (.file path fault)
      | .ok tree => .ok tree

end ScanPlan

end ApiCoverage
