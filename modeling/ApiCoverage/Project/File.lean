import ApiCoverage.Failure
import ApiCoverage.Project.Options
import ApiCoverage.Text.Blank
import ApiCoverage.Toml.Document

/-!
# Project files

A project file is a TOML document with a table of scan settings and a table of report settings, both
of which may be left out. Relative paths in it start at the folder of the file.
-/

namespace ApiCoverage

namespace ScanOptions

/-- The scan settings in a TOML value. -/
def scanTable (value : Toml.Value) : Toml.Outcome ScanOptions := do
  let record ← Toml.Record.ofValue
    ["root", "surfaces", "surfaces_file", "exclusions", "declarations", "classpath",
      "keep_object_methods"] value
  return {
    root := ← record.optional "root" Toml.Value.asString
    surfaces := ← record.withDefault "surfaces" Toml.Value.asStrings []
    surfacesFile := ← record.optional "surfaces_file" Toml.Value.asString
    exclusions := ← record.optional "exclusions" Toml.Value.asString
    declarations := ← record.withDefault "declarations" Toml.Value.asStrings []
    classpath := ← record.withDefault "classpath" Toml.Value.asStrings []
    keepObjectMethods := ← record.withDefault "keep_object_methods" Toml.Value.asBool false }

/-- The report settings in a TOML value. -/
def reportTable (value : Toml.Value) : Toml.Outcome ScanOptions := do
  let record ← Toml.Record.ofValue ["format", "output", "title", "link_base"] value
  return {
    format := ← record.optional "format" (Toml.Value.asChoice ReportFormat.ofWord?)
    output := ← record.optional "output" Toml.Value.asString
    title := ← record.optional "title" Toml.Value.asString
    linkBase := ← record.optional "link_base" Toml.Value.asString }

/-- The settings in the text of a project file, with its paths as they are written. -/
def ofToml (text : String) : Toml.Outcome ScanOptions := do
  let record ← Toml.Record.ofValue ["scan", "report"] (← Toml.parse text)
  let scan ← record.withDefault "scan" scanTable {}
  let report ← record.withDefault "report" reportTable {}
  return scan.overlay report

/-- The folder in which the relative paths of a project file start. -/
def baseFolder (path : Path) : Path :=
  (Path.parent? path).getD "."

/-- The settings in the text of the project file at a path. -/
def ofText (path : Path) (text : String) : Except Failure ScanOptions :=
  match ofToml text with
  | .error fault => .error (.manifest path (.malformed fault))
  | .ok options =>
      if options.surfaces.any fun name => (Text.trim name).isEmpty then
        .error (.manifest path .blankProjectSurface)
      else
        .ok (options.mapPaths (Path.join (baseFolder path)))

/-- The settings in a project file. -/
def load (tree : FileTree) (path : Path) : Except Failure ScanOptions :=
  match tree.readText path with
  | .error fault => .error (.manifest path (.projectUnreadable fault))
  | .ok text => ofText path text

end ScanOptions

end ApiCoverage
