import ApiCoverage.Report.Csv
import ApiCoverage.Report.Html
import ApiCoverage.Report.Json
import ApiCoverage.Report.Plain

/-!
# Report formats

The forms in which a report is printed.
-/

namespace ApiCoverage

/-- The form of a printed report. -/
inductive ReportFormat where
  | plain
  | csv
  | html
  | json
  deriving DecidableEq, Repr

/-- What a page shows besides the report. -/
structure PageSettings where
  title : String
  /-- What links to source files start with, if they are not relative to the page. -/
  linkBase : Option String
  deriving DecidableEq, Repr

namespace ReportFormat

/-- The word for a form. -/
def word : ReportFormat → String
  | plain => "text"
  | csv => "csv"
  | html => "html"
  | json => "json"

/-- Every form. -/
def all : List ReportFormat :=
  [plain, csv, html, json]

/-- The form that a word names. -/
def ofWord? (word : String) : Option ReportFormat :=
  all.find? fun format => format.word == word

/-- The extension of a file with a report. -/
def extension : ReportFormat → String
  | plain => "txt"
  | csv => "csv"
  | html => "html"
  | json => "json"

/-- A report as it is printed. -/
def print (format : ReportFormat) (settings : PageSettings) (report : CoverageReport) : String :=
  match format with
  | plain => report.plain
  | csv => report.csv
  | html => report.html settings.title settings.linkBase
  | json => report.json

end ReportFormat

end ApiCoverage
