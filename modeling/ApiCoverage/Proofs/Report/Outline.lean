import ApiCoverage.Proofs.Text.Layout
import ApiCoverage.Report.Format

/-!
# How a report is laid out

However a report is printed, its surfaces stand in report order, the methods of a surface stand
within it in report order, and the call sites of a method within the method. A form is therefore
described by what it writes around and between the members of the report, of a surface and of a
method. The separated values give the number of call sites only, so a call site adds no text of its
own to them.
-/

namespace ApiCoverage

/-- What a form writes around the members of a whole, and between two of them. -/
structure Frame (α : Type) where
  opening : α → String
  separator : String
  closing : α → String

/-- The members of a whole, written one after another in its frame. -/
def Frame.write {α : Type} (frame : Frame α) (whole : α) (members : List String) : String :=
  frame.opening whole ++ frame.separator.intercalate members ++ frame.closing whole

/-- What a form writes at each level of a report. -/
structure Outline where
  report : Frame CoverageReport
  surface : Frame (String × MethodCalls)
  method : Frame (String × MethodKey × OrderedSet CallSite)
  site : CallSite → String

/-- A report as an outline lays it out. -/
def Outline.write (outline : Outline) (report : CoverageReport) : String :=
  outline.report.write report <| report.surfaces.entries.map fun (name, calls) =>
    outline.surface.write (name, calls) <| calls.entries.map fun (key, sites) =>
      outline.method.write (name, key, sites) <| sites.elements.map outline.site

namespace Frame

variable {α : Type}

/-- The frame of members that stand in lines of their own. -/
def plain (opening closing : α → String) : Frame α :=
  ⟨opening, "", closing⟩

@[simp]
theorem write_plain (opening closing : α → String) (whole : α) (members : List String) :
    (plain opening closing).write whole members =
      opening whole ++ String.join members ++ closing whole := by
  rw [write, plain, Text.intercalate_empty]

end Frame

/-! ## Plain text -/

/-- The outline of plain text. -/
def plainOutline : Outline where
  report := .plain (fun _ => "") fun report =>
    Text.unlines (CoverageReport.plainTable report.summary)
  surface := .plain (fun (name, _) => s!"Interface / Class: {name}" ++ "\n") fun _ => "\n"
  method := .plain (fun (_, key, sites) =>
    s!"\t{key.display}" ++ "\n" ++ if sites.isEmpty then s!"\t\t{uncoveredMark}" ++ "\n" else "")
    fun _ => ""
  site site := s!"\t\t{site.display}" ++ "\n"

theorem unlines_plainMethod (name : String) (key : MethodKey) (sites : OrderedSet CallSite) :
    Text.unlines (CoverageReport.plainMethod key sites) =
      plainOutline.method.write (name, key, sites) (sites.elements.map plainOutline.site) := by
  rcases sites with ⟨sites, increasing⟩
  cases sites with
  | nil => simp [CoverageReport.plainMethod, plainOutline, OrderedSet.isEmpty]
  | cons first rest =>
      simp [CoverageReport.plainMethod, plainOutline, OrderedSet.isEmpty, Text.unlines,
        Function.comp_def]

theorem unlines_plainSurface (name : String) (calls : MethodCalls) :
    Text.unlines (CoverageReport.plainSurface name calls) =
      plainOutline.surface.write (name, calls) (calls.entries.map fun (key, sites) =>
        plainOutline.method.write (name, key, sites) (sites.elements.map plainOutline.site)) := by
  simp only [← unlines_plainMethod]
  simp [CoverageReport.plainSurface, plainOutline, Text.unlines_flatMap, String.append_assoc]

theorem plain_eq_write (report : CoverageReport) : report.plain = plainOutline.write report := by
  simp only [Outline.write, ← unlines_plainSurface]
  simp [CoverageReport.plain, CoverageReport.plainListing, plainOutline, Text.unlines_flatMap]

/-! ## Separated values -/

/-- The outline of separated values. -/
def csvOutline : Outline where
  report := .plain (fun _ => Csv.row Csv.header ++ "\n") fun _ => ""
  surface := .plain (fun _ => "") fun _ => ""
  method := .plain (fun (name, key, sites) => Csv.row (Csv.record name key sites) ++ "\n")
    fun _ => ""
  site _ := ""

theorem write_csv_method (name : String) (key : MethodKey) (sites : OrderedSet CallSite) :
    csvOutline.method.write (name, key, sites) (sites.elements.map csvOutline.site) =
      Csv.row (Csv.record name key sites) ++ "\n" := by
  simp [csvOutline]

theorem csv_eq_write (report : CoverageReport) : report.csv = csvOutline.write report := by
  simp only [Outline.write, write_csv_method]
  simp [CoverageReport.csv, CoverageReport.csvRecords, CoverageReport.methods, csvOutline,
    Text.unlines, Text.join_flatMap, List.map_flatMap, Function.comp_def]

/-! ## Web pages -/

namespace Html

@[simp]
theorem render_nil : render [] = "" :=
  rfl

@[simp]
theorem render_append (first second : List Piece) :
    render (first ++ second) = render first ++ render second := by
  simp [render]

theorem render_flatMap {α : Type} (parts : α → List Piece) (members : List α) :
    render (members.flatMap parts) =
      String.join (members.map fun member => render (parts member)) := by
  simp only [render, List.map_flatMap, Text.join_flatMap]

/-- The mark of a method without call sites stands where the first one would. -/
theorem render_sites (linkBase : Option String) (sites : OrderedSet CallSite) :
    render (if sites.isEmpty then [uncovered] else sites.elements.flatMap (callSite linkBase)) =
      render (if sites.isEmpty then [uncovered] else []) ++
        String.join (sites.elements.map fun site => render (callSite linkBase site)) := by
  rcases sites with ⟨_ | ⟨first, rest⟩, increasing⟩
  · simp [OrderedSet.isEmpty]
  · simp only [OrderedSet.isEmpty, List.isEmpty_cons, Bool.false_eq_true, if_false, render_nil,
      String.empty_append, render_flatMap]

end Html

/-- The outline of a web page. -/
def htmlOutline (settings : PageSettings) : Outline where
  report := .plain (fun _ => Html.render (Html.opening settings.title)) fun _ =>
    Html.render Html.closing
  surface := .plain (fun (name, calls) => Html.render (Html.surfaceOpening name calls)) fun _ =>
    Html.render Html.surfaceClosing
  method := .plain (fun (_, key, sites) => Html.render
    (Html.methodOpening key ++ if sites.isEmpty then [Html.uncovered] else [])) fun _ =>
    Html.render Html.methodClosing
  site site := Html.render (Html.callSite settings.linkBase site)

theorem render_method (settings : PageSettings) (name : String) (key : MethodKey)
    (sites : OrderedSet CallSite) :
    Html.render (Html.method settings.linkBase key sites) =
      (htmlOutline settings).method.write (name, key, sites)
        (sites.elements.map (htmlOutline settings).site) := by
  simp only [Html.method, htmlOutline, Html.render_append, Html.render_sites, Frame.write_plain,
    String.append_assoc]

theorem render_surface (settings : PageSettings) (name : String) (calls : MethodCalls) :
    Html.render (Html.surface settings.linkBase name calls) =
      (htmlOutline settings).surface.write (name, calls) (calls.entries.map fun (key, sites) =>
        (htmlOutline settings).method.write (name, key, sites)
          (sites.elements.map (htmlOutline settings).site)) := by
  simp only [← render_method]
  simp only [Html.surface, htmlOutline, Html.render_append, Html.render_flatMap, Frame.write_plain]

theorem html_eq_write (settings : PageSettings) (report : CoverageReport) :
    report.html settings.title settings.linkBase = (htmlOutline settings).write report := by
  simp only [Outline.write, ← render_surface]
  simp only [CoverageReport.html, CoverageReport.htmlPieces, htmlOutline, Html.render_append,
    Html.render_flatMap, Frame.write_plain]

/-! ## JSON documents -/

namespace JsonValue

/-- An object up to the value of its last field. -/
def objectOpening (indent : String) (fields : List (String × JsonValue)) (last : String) : String :=
  "\x7b\n" ++ String.join ((renderFields (indent ++ "  ") fields).map fun field => field ++ ",\n") ++
    (indent ++ "  " ++ quote last ++ ": ")

/-- An array up to its items. -/
def arrayOpening (vacant : Bool) : String :=
  if vacant then "[" else "[\n"

/-- An array after its items. -/
def arrayClosing (indent : String) (vacant : Bool) : String :=
  if vacant then "]" else "\n" ++ indent ++ "]"

theorem intercalate_append_singleton (separator last : String) (texts : List String) :
    separator.intercalate (texts ++ [last]) =
      String.join (texts.map fun text => text ++ separator) ++ last := by
  induction texts with
  | nil => simp
  | cons text rest ih =>
      rw [List.cons_append, String.intercalate_cons_of_ne_nil (by simp), ih]
      simp [String.append_assoc]

theorem renderItems_eq_map (indent : String) (items : List JsonValue) :
    renderItems indent items = items.map fun item => indent ++ item.render indent := by
  induction items with
  | nil => simp [renderItems]
  | cons item rest ih => simp [renderItems, ih]

theorem renderFields_append (indent : String) (first second : List (String × JsonValue)) :
    renderFields indent (first ++ second) =
      renderFields indent first ++ renderFields indent second := by
  induction first with
  | nil => simp [renderFields]
  | cons field rest ih =>
      rcases field with ⟨name, value⟩
      simp [renderFields, ih]

theorem render_array (indent : String) (items : List JsonValue) :
    (array items).render indent =
      arrayOpening items.isEmpty ++
        ",\n".intercalate (items.map fun item => indent ++ "  " ++ item.render (indent ++ "  ")) ++
        arrayClosing indent items.isEmpty := by
  cases items with
  | nil => simp [render, arrayOpening, arrayClosing]
  | cons first rest =>
      simp [render, block, arrayOpening, arrayClosing, renderItems_eq_map, String.append_assoc]

theorem render_object_append (indent last : String) (fields : List (String × JsonValue))
    (value : JsonValue) :
    (object (fields ++ [(last, value)])).render indent =
      objectOpening indent fields last ++ value.render (indent ++ "  ") ++ "\n" ++ indent ++
        "\x7d" := by
  have shape : (object (fields ++ [(last, value)])).render indent =
      block "\x7b" "\x7d" indent (renderFields (indent ++ "  ") (fields ++ [(last, value)])) := by
    cases fields with
    | nil => simp [render]
    | cons field rest => simp [render]
  rw [shape, renderFields_append]
  simp [block, objectOpening, renderFields, intercalate_append_singleton, String.append_assoc]

end JsonValue

/-- How a whole with members becomes an object: its own fields come first, and the last field is the
array of its members. -/
structure MemberObject (α : Type) where
  fields : α → List (String × JsonValue)
  last : String
  /-- Whether a whole has no members. -/
  vacant : α → Bool

namespace MemberObject

open JsonValue (objectOpening arrayOpening arrayClosing)

variable {α : Type}

/-- The object for a whole and its members. -/
def value (shape : MemberObject α) (whole : α) (members : List JsonValue) : JsonValue :=
  .object (shape.fields whole ++ [(shape.last, .array members)])

/-- What is written around the members of a whole after an indentation. -/
def frame (shape : MemberObject α) (indent : String) : Frame α where
  opening whole := indent ++ objectOpening indent (shape.fields whole) shape.last ++
    arrayOpening (shape.vacant whole)
  separator := ",\n"
  closing whole := arrayClosing (indent ++ "  ") (shape.vacant whole) ++ "\n" ++ indent ++ "\x7d"

theorem render_value (shape : MemberObject α) (indent inner : String)
    (deeper : inner = indent ++ "  " ++ "  ") {whole : α} {members : List JsonValue}
    (counted : shape.vacant whole = members.isEmpty) :
    indent ++ (shape.value whole members).render indent =
      (shape.frame indent).write whole (members.map fun member => inner ++ member.render inner) := by
  rw [value, JsonValue.render_object_append, JsonValue.render_array]
  simp only [Frame.write, frame, counted, deeper, String.append_assoc]

/-- The object for a method. -/
def ofMethod : MemberObject (String × MethodKey × OrderedSet CallSite) where
  fields := fun (_, key, sites) => [("name", .string key.name),
    ("descriptor", .string key.descriptor), ("signature", .string key.signature),
    ("covered", .boolean !sites.isEmpty)]
  last := "call_sites"
  vacant := fun (_, _, sites) => sites.isEmpty

/-- The object for a surface. -/
def ofSurface : MemberObject (String × MethodCalls) where
  fields := fun (name, calls) => [("name", .string name),
    ("summary", (SurfaceStats.ofCalls name calls).toJson)]
  last := "methods"
  vacant := fun (_, calls) => calls.entries.isEmpty

/-- The object for a report. -/
def ofReport : MemberObject CoverageReport where
  fields report := [("summary", report.summary.total.toJson)]
  last := "surfaces"
  vacant report := report.surfaces.entries.isEmpty

end MemberObject

/-- The outline of a JSON document. -/
def jsonOutline : Outline where
  report :=
    let frame := MemberObject.ofReport.frame ""
    { frame with closing := fun report => frame.closing report ++ "\n" }
  surface := MemberObject.ofSurface.frame "    "
  method := MemberObject.ofMethod.frame "        "
  site site := "            " ++ site.toJson.render "            "

theorem render_methodToJson (name : String) (key : MethodKey) (sites : OrderedSet CallSite) :
    "        " ++ (key.toJson sites).render "        " =
      jsonOutline.method.write (name, key, sites) (sites.elements.map jsonOutline.site) := by
  have counted : MemberObject.ofMethod.vacant (name, key, sites) =
      (sites.elements.map CallSite.toJson).isEmpty := by
    simp [MemberObject.ofMethod, OrderedSet.isEmpty]
  have written :=
    MemberObject.ofMethod.render_value "        " "            " (by decide) counted
  rw [List.map_map] at written
  exact written

theorem render_surfaceToJson (name : String) (calls : MethodCalls) :
    "    " ++ (MethodCalls.toJson name calls (.ofCalls name calls)).render "    " =
      jsonOutline.surface.write (name, calls) (calls.entries.map fun (key, sites) =>
        jsonOutline.method.write (name, key, sites) (sites.elements.map jsonOutline.site)) := by
  have counted : MemberObject.ofSurface.vacant (name, calls) =
      (calls.entries.map fun (key, sites) => key.toJson sites).isEmpty := by
    simp [MemberObject.ofSurface]
  have written := MemberObject.ofSurface.render_value "    " "        " (by decide) counted
  simp only [List.map_map, Function.comp_def, render_methodToJson name] at written
  exact written

/-- The rows of the summary are those of the surfaces that they stand beside. -/
theorem toJson_eq_value (report : CoverageReport) :
    report.toJson = MemberObject.ofReport.value report (report.surfaces.entries.map
      fun (name, calls) => MethodCalls.toJson name calls (.ofCalls name calls)) := by
  rw [CoverageReport.toJson, CoverageReport.zip_summary, List.map_map]
  rfl

theorem json_eq_write (report : CoverageReport) : report.json = jsonOutline.write report := by
  have counted : MemberObject.ofReport.vacant report = (report.surfaces.entries.map
      fun (name, calls) => MethodCalls.toJson name calls (.ofCalls name calls)).isEmpty := by
    simp [MemberObject.ofReport]
  have written := MemberObject.ofReport.render_value "" "    " (by decide) counted
  simp only [List.map_map, Function.comp_def, render_surfaceToJson] at written
  rw [String.empty_append] at written
  rw [CoverageReport.json, JsonValue.document, toJson_eq_value, written]
  simp only [Outline.write, Frame.write, jsonOutline, String.append_assoc]

/-! ## All forms -/

/-- The outline of a form. -/
def ReportFormat.outline (format : ReportFormat) (settings : PageSettings) : Outline :=
  match format with
  | plain => plainOutline
  | csv => csvOutline
  | html => htmlOutline settings
  | json => jsonOutline

/-- Every form lays out a report along its outline. -/
theorem ReportFormat.print_eq_write (format : ReportFormat) (settings : PageSettings)
    (report : CoverageReport) :
    format.print settings report = (format.outline settings).write report := by
  cases format with
  | plain => exact plain_eq_write report
  | csv => exact csv_eq_write report
  | html => exact html_eq_write settings report
  | json => exact json_eq_write report

end ApiCoverage
