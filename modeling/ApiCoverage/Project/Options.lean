import ApiCoverage.Files.Path
import ApiCoverage.Report.Format

/-!
# Scan options

The settings of a scan as one source gives them, which may leave any of them open. Sources are laid
over one another: a single value is taken from the last source that gives it, lists are joined in
order, and a switch is on if any source turns it on.
-/

namespace ApiCoverage

/-- The settings that a source gives. -/
structure ScanOptions where
  root : Option Path := none
  surfaces : List String := []
  surfacesFile : Option Path := none
  exclusions : Option Path := none
  declarations : List Path := []
  classpath : List Path := []
  keepObjectMethods : Bool := false
  format : Option ReportFormat := none
  output : Option Path := none
  title : Option String := none
  linkBase : Option String := none
  deriving DecidableEq, Repr

namespace ScanOptions

/-- The settings of one source with those of another laid over them. -/
def overlay (base upper : ScanOptions) : ScanOptions where
  root := upper.root <|> base.root
  surfaces := base.surfaces ++ upper.surfaces
  surfacesFile := upper.surfacesFile <|> base.surfacesFile
  exclusions := upper.exclusions <|> base.exclusions
  declarations := base.declarations ++ upper.declarations
  classpath := base.classpath ++ upper.classpath
  keepObjectMethods := base.keepObjectMethods || upper.keepObjectMethods
  format := upper.format <|> base.format
  output := upper.output <|> base.output
  title := upper.title <|> base.title
  linkBase := upper.linkBase <|> base.linkBase

/-- The settings with every path changed. -/
def mapPaths (change : Path → Path) (options : ScanOptions) : ScanOptions :=
  { options with
    root := options.root.map change
    surfacesFile := options.surfacesFile.map change
    exclusions := options.exclusions.map change
    declarations := options.declarations.map change
    classpath := options.classpath.map change
    output := options.output.map change }

end ScanOptions

end ApiCoverage
