import ApiCoverage.Report.Plain

/-!
# Reports as web pages

A page is a sequence of pieces: fixed markup and texts. Texts come from class files and options and
are escaped where they are written, so they can neither open nor close markup. Every call site links
to its source file, below a link base or relative to the page.
-/

namespace ApiCoverage

namespace Html

/-- A piece of a page. -/
inductive Piece where
  /-- Markup of the page itself, written as it stands. -/
  | markup (text : String)
  /-- A text that the page shows or links to, written escaped. -/
  | text (text : String)
  deriving DecidableEq, Repr

/-- A character of a text as it is written. -/
def escapeChar (char : Char) : List Char :=
  match char with
  | '&' => "&amp;".toList
  | '<' => "&lt;".toList
  | '>' => "&gt;".toList
  | '"' => "&quot;".toList
  | other => [other]

/-- A text as it is written. -/
def escape (text : String) : String :=
  String.ofList (text.toList.flatMap escapeChar)

/-- A piece as it is written. -/
def Piece.render : Piece → String
  | markup written => written
  | text shown => escape shown

/-- A page as it is written. -/
def render (pieces : List Piece) : String :=
  String.join (pieces.map Piece.render)

/-- A rule of the style sheet: what it applies to, and its settings. -/
structure StyleRule where
  selector : String
  settings : List (String × String)

/-- The lines of a style rule. -/
def StyleRule.lines (rule : StyleRule) : List String :=
  (rule.selector ++ " \x7b") ::
    rule.settings.map (fun (name, value) => s!"    {name}: {value};") ++ ["\x7d"]

/-- The style sheet. -/
def styleRules : List StyleRule :=
  [⟨"body", [("font-family", "Arial, sans-serif"), ("font-size", "12px")]⟩,
    ⟨"div.apiClass", [("background-color", "#dee3e9"), ("border", "1px solid #9eadc0"),
      ("margin", "5px 5px 50px 5px"), ("padding", "2px 5px")]⟩,
    ⟨"div.apiClass h2 span.ratio", [("font-weight", "normal"), ("color", "#4d5d70")]⟩,
    ⟨"ul.blockList", [("margin", "10px 0 10px 0"), ("padding", "0")]⟩,
    ⟨"ul.blockList li.blockList", [("list-style", "none"), ("margin-bottom", "5px"),
      ("padding", "5px 20px 5px 10px"), ("border", "1px solid #9eadc0"),
      ("background-color", "#f9f9f9")]⟩,
    ⟨"ul.blockList li.blockList h3", [("margin", "3px"), ("color", "black"),
      ("font-weight", "bold")]⟩,
    ⟨"ul.blockList ul.blockList", [("padding", "5px 5px 5px 8px"),
      ("background-color", "#ffffff"), ("border", "1px solid #9eadc0")]⟩,
    ⟨"ul.blockList ul.blockList li.blockList", [("border", "0"), ("padding", "3px"),
      ("margin", "0"), ("background-color", "#ffffff")]⟩,
    ⟨"ul.blockList ul.blockList li.uncovered", [("color", "#b00020"), ("font-weight", "bold")]⟩]

/-- The text of the style sheet. -/
def styleSheet : String :=
  Text.unlines (styleRules.flatMap StyleRule.lines)

/-- The name of the source file of a call site. -/
def sourceFileName (site : CallSite) : String :=
  CallSite.outerName site.simpleUnitName ++ ".java"

/-- A line number after a mark, or nothing. -/
def lineSuffix (mark : String) : Option Nat → String
  | some line => mark ++ toString line
  | none => ""

/-- The text of the link at a call site. -/
def linkText (site : CallSite) : String :=
  sourceFileName site ++ lineSuffix ":" site.line

/-- A link base without the slashes at its end. -/
def trimBase (base : String) : String :=
  String.ofList (base.toList.reverse.dropWhile (· == '/')).reverse

/-- The target of the link at a call site. -/
def linkTarget (linkBase : Option String) (site : CallSite) : String :=
  let path := match linkBase with
    | some base => trimBase base ++ "/" ++ site.sourcePath
    | none => site.sourcePath
  path ++ lineSuffix "#L" site.line

/-- A call site with its link. -/
def callSite (linkBase : Option String) (site : CallSite) : List Piece :=
  [.markup "<li class=\"blockList\">", .text s!"{site.unit}.{site.method}", .markup " (<a href=\"",
    .text (linkTarget linkBase site), .markup "\" target=\"_top\">", .text (linkText site),
    .markup "</a>)</li>"]

/-- The mark of a method without call sites. -/
def uncovered : Piece :=
  .markup ("<li class=\"blockList uncovered\">" ++ uncoveredMark ++ "</li>")

/-- A method up to its call sites. -/
def methodOpening (key : MethodKey) : List Piece :=
  [.markup "<li class=\"blockList\"><h3>", .text key.fullSignature,
    .markup "</h3><ul class=\"blockList\">"]

/-- A method after its call sites. -/
def methodClosing : List Piece :=
  [.markup "</ul></li>\n"]

/-- A method with its call sites. -/
def method (linkBase : Option String) (key : MethodKey) (sites : OrderedSet CallSite) :
    List Piece :=
  methodOpening key ++
    (if sites.isEmpty then [uncovered] else sites.elements.flatMap (callSite linkBase)) ++
    methodClosing

/-- A surface up to its methods. -/
def surfaceOpening (name : String) (calls : MethodCalls) : List Piece :=
  let covered := calls.values.countP fun sites => !sites.isEmpty
  [.markup "<div class=\"apiClass\">\n<h2>", .text name, .markup " <span class=\"ratio\">",
    .text (toString covered), .markup "/", .text (toString calls.size),
    .markup "</span></h2>\n<ul class=\"blockList\">\n"]

/-- A surface after its methods. -/
def surfaceClosing : List Piece :=
  [.markup "</ul>\n</div>\n"]

/-- A surface with its methods. -/
def surface (linkBase : Option String) (name : String) (calls : MethodCalls) : List Piece :=
  surfaceOpening name calls ++
    calls.entries.flatMap (fun (key, sites) => method linkBase key sites) ++
    surfaceClosing

/-- The page up to the surfaces. -/
def opening (title : String) : List Piece :=
  [.markup "<!DOCTYPE html>\n<html>\n<head>\n<meta charset=\"utf-8\">\n<title>", .text title,
    .markup " API coverage</title>\n<style type=\"text/css\">\n", .markup styleSheet,
    .markup "</style>\n</head>\n<body>\n<h1>", .text title, .markup "</h1>\n"]

/-- The page after the surfaces. -/
def closing : List Piece :=
  [.markup "</body>\n</html>\n"]

end Html

/-- The pieces of the web page of a report. -/
def CoverageReport.htmlPieces (title : String) (linkBase : Option String)
    (report : CoverageReport) : List Html.Piece :=
  Html.opening title ++
    report.surfaces.entries.flatMap (fun (name, calls) => Html.surface linkBase name calls) ++
    Html.closing

/-- The web page of a report. -/
def CoverageReport.html (title : String) (linkBase : Option String) (report : CoverageReport) :
    String :=
  Html.render (report.htmlPieces title linkBase)

end ApiCoverage
