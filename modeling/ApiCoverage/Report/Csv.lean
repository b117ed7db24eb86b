import ApiCoverage.Report
import ApiCoverage.Text.Layout

/-!
# Reports as separated values

One row per tracked method: surface, method, number of call sites, and whether the method is
covered. A comma and a blank stand between fields. A field is quoted when it holds a comma, a quote
or a line feed, and a quote inside a quoted field is written twice.
-/

namespace ApiCoverage

namespace Csv

/-- Whether a field must be quoted. -/
def needsQuotes (chars : List Char) : Bool :=
  chars.any fun char => char == ',' || char == '"' || char == '\n'

/-- The characters of a field with every quote doubled. -/
def doubleQuotes : List Char → List Char
  | [] => []
  | char :: rest =>
    if char = '"' then '"' :: '"' :: doubleQuotes rest else char :: doubleQuotes rest

/-- A field as it is written. -/
def field (text : String) : String :=
  if needsQuotes text.toList then
    String.ofList ('"' :: doubleQuotes text.toList ++ ['"'])
  else text

/-- A row as it is written. -/
def row (fields : List String) : String :=
  ", ".intercalate (fields.map field)

/-- The row that names the columns. -/
def header : List String :=
  ["Interface/Class", "Method", "Call Count", "Status"]

/-- The word for whether a method with these call sites is covered. -/
def status (sites : OrderedSet CallSite) : String :=
  if sites.isEmpty then "uncovered" else "covered"

/-- The fields of a method. -/
def record (surface : String) (key : MethodKey) (sites : OrderedSet CallSite) : List String :=
  [surface, key.display, toString sites.size, status sites]

end Csv

/-- The fields of every tracked method. -/
def CoverageReport.csvRecords (report : CoverageReport) : List (List String) :=
  report.methods.map fun (surface, key, sites) => Csv.record surface key sites

/-- The separated values of a report. -/
def CoverageReport.csv (report : CoverageReport) : String :=
  Text.unlines ((Csv.header :: report.csvRecords).map Csv.row)

end ApiCoverage
