import ApiCoverage.Proofs.Ordered.Map
import ApiCoverage.Proofs.Ordered.Set
import ApiCoverage.Proofs.Outcome
import ApiCoverage.Proofs.Report.JsonText

/-!
# Reading reports back

A document is read into records with the same fields, and the records put together make a report
again. Nothing of a report is lost on the way, so two reports with one document are the same report.
-/

namespace ApiCoverage

/-! ## Parts of a document -/

namespace JsonTree

/-- The value of a field of an object. -/
def field? (name : String) : JsonTree → Option JsonTree
  | object fields => fields.lookup name
  | _ => none

/-- What a string says. -/
def text? : JsonTree → Option String
  | string text => some text
  | _ => none

/-- What a name for a truth value says. -/
def flag? : JsonTree → Option Bool
  | boolean value => some value
  | _ => none

/-- What a number without sign and fraction says. -/
def natural? : JsonTree → Option Nat
  | number digits => Text.natural? digits
  | _ => none

/-- A number as it is written. -/
def decimal? : JsonTree → Option String
  | number digits => some digits
  | _ => none

/-- What a number without sign and fraction says, where `null` stands for an unknown one. -/
def known? : JsonTree → Option (Option Nat)
  | null => some none
  | tree => tree.natural?.map some

/-- The items of an array, each of them read. -/
def items? {α : Type} (read : JsonTree → Option α) : JsonTree → Option (List α)
  | array items => items.mapM read
  | _ => none

end JsonTree

/-! ## Records -/

/-- The counts of a surface, or of all of them together, as a document gives them. The share stands in
the form in which it is written. -/
structure CountsRecord where
  tracked : Nat
  covered : Nat
  callSites : Nat
  percent : String
  deriving DecidableEq, Repr

/-- A method as a document gives it. -/
structure MethodRecord where
  name : String
  descriptor : String
  signature : String
  covered : Bool
  sites : List CallSite
  deriving DecidableEq, Repr

/-- A surface as a document gives it. -/
structure SurfaceRecord where
  name : String
  summary : CountsRecord
  methods : List MethodRecord
  deriving DecidableEq, Repr

/-- A report as a document gives it. -/
structure ReportRecord where
  summary : CountsRecord
  surfaces : List SurfaceRecord
  deriving DecidableEq, Repr

namespace CountsRecord

/-- The counts in a value. -/
def ofTree? (tree : JsonTree) : Option CountsRecord := do
  let tracked ← (← tree.field? "tracked_methods").natural?
  let covered ← (← tree.field? "covered_methods").natural?
  let callSites ← (← tree.field? "call_sites").natural?
  let percent ← (← tree.field? "percent").decimal?
  return ⟨tracked, covered, callSites, percent⟩

/-- The counts as a document gives them. -/
def ofStats (stats : SurfaceStats) : CountsRecord :=
  ⟨stats.tracked, stats.covered, stats.callSites, Decimal.shortest stats.percent⟩

end CountsRecord

/-- The call site in a value. -/
def CallSite.ofTree? (tree : JsonTree) : Option CallSite := do
  let unit ← (← tree.field? "unit").text?
  let method ← (← tree.field? "method").text?
  let line ← (← tree.field? "line").known?
  return ⟨unit, method, line⟩

namespace MethodRecord

/-- The method in a value. -/
def ofTree? (tree : JsonTree) : Option MethodRecord := do
  let name ← (← tree.field? "name").text?
  let descriptor ← (← tree.field? "descriptor").text?
  let signature ← (← tree.field? "signature").text?
  let covered ← (← tree.field? "covered").flag?
  let sites ← (← tree.field? "call_sites").items? CallSite.ofTree?
  return ⟨name, descriptor, signature, covered, sites⟩

/-- A method as a document gives it. -/
def ofMethod (key : MethodKey) (sites : OrderedSet CallSite) : MethodRecord :=
  ⟨key.name, key.descriptor, key.signature, !sites.isEmpty, sites.elements⟩

/-- The method that a record is about. -/
def key (record : MethodRecord) : MethodKey :=
  ⟨record.name, record.descriptor⟩

end MethodRecord

namespace SurfaceRecord

/-- The surface in a value. -/
def ofTree? (tree : JsonTree) : Option SurfaceRecord := do
  let name ← (← tree.field? "name").text?
  let summary ← CountsRecord.ofTree? (← tree.field? "summary")
  let methods ← (← tree.field? "methods").items? MethodRecord.ofTree?
  return ⟨name, summary, methods⟩

/-- A surface as a document gives it, beside a row of the summary. -/
def ofCalls (name : String) (calls : MethodCalls) (row : SurfaceStats) : SurfaceRecord where
  name := name
  summary := .ofStats row
  methods := calls.entries.map fun (key, sites) => .ofMethod key sites

/-- The methods of a surface with their call sites. -/
def toCalls (record : SurfaceRecord) : MethodCalls :=
  record.methods.foldl (fun calls method => calls.insert method.key (.ofList method.sites)) .empty

/-- The counts of a surface, taken anew from its methods. -/
def recount (record : SurfaceRecord) : SurfaceStats where
  surface := record.name
  tracked := record.methods.length
  covered := record.methods.countP fun method => !method.sites.isEmpty
  callSites := sumBy (fun method => method.sites.length) record.methods

end SurfaceRecord

namespace ReportRecord

/-- The report in a value. -/
def ofTree? (tree : JsonTree) : Option ReportRecord := do
  let summary ← CountsRecord.ofTree? (← tree.field? "summary")
  let surfaces ← (← tree.field? "surfaces").items? SurfaceRecord.ofTree?
  return ⟨summary, surfaces⟩

/-- The report in a document. -/
def ofText? (text : String) : Option ReportRecord :=
  (JsonTree.ofText? text).bind ofTree?

/-- A report as a document gives it: the surfaces stand beside the rows of the summary, for as long as
there are both. -/
def ofReport (report : CoverageReport) : ReportRecord where
  summary := .ofStats report.summary.total
  surfaces := (report.surfaces.entries.zip report.summary.surfaces).map
    fun ((name, calls), row) => .ofCalls name calls row

/-- The report that a record is about. -/
def toReport (record : ReportRecord) : CoverageReport :=
  let grow (surfaces : OrderedMap String MethodCalls) (surface : SurfaceRecord) :=
    surfaces.insert surface.name surface.toCalls
  ⟨record.surfaces.foldl grow .empty⟩

/-- A record tells everything about a report: put together it is the report, and what it says besides
follows from the call sites in it. -/
structure Describes (record : ReportRecord) (report : CoverageReport) : Prop where
  rebuilt : record.toReport = report
  /-- A method is marked as covered if it has a call site. -/
  covered : ∀ surface ∈ record.surfaces, ∀ method ∈ surface.methods,
    method.covered = true ↔ method.sites ≠ []
  /-- The counts of a surface are those of its own methods. -/
  counted : ∀ surface ∈ record.surfaces, surface.summary = .ofStats surface.recount
  /-- The counts of the surfaces are the rows of the summary, in their order and under their names. -/
  aligned : record.surfaces.map (fun surface => (surface.name, surface.summary)) =
    report.summary.surfaces.map fun row => (row.surface, .ofStats row)

end ReportRecord

/-! ## From values to records -/

namespace JsonValue

/-- The tree of a field of an object. -/
@[simp]
theorem field?_tree (name : String) (fields : List (String × JsonValue)) :
    (object fields).tree.field? name = (fields.lookup name).map tree := by
  rw [tree, fieldTrees_eq_map, JsonTree.field?]
  induction fields with
  | nil => rfl
  | cons field rest ih =>
      rcases field with ⟨other, value⟩
      rw [List.map_cons, List.lookup_cons, List.lookup_cons]
      split
      · rfl
      · exact ih

@[simp]
theorem text?_tree (text : String) : (string text).tree.text? = some text := by
  rw [tree, JsonTree.text?]

@[simp]
theorem flag?_tree (value : Bool) : (boolean value).tree.flag? = some value := by
  rw [tree, JsonTree.flag?]

@[simp]
theorem decimal?_tree (value : Decimal.Binary64) :
    (decimal value).tree.decimal? = some (Decimal.shortest value) := by
  rw [tree, JsonTree.decimal?]

@[simp]
theorem known?_null : null.tree.known? = some none := by
  rw [tree, JsonTree.known?]

@[simp]
theorem natural?_tree (value : Nat) : (natural value).tree.natural? = some value := by
  rw [tree, JsonTree.natural?, Text.natural?_toString]

@[simp]
theorem known?_natural (value : Nat) : (natural value).tree.known? = some (some value) := by
  have read := natural?_tree value
  rw [tree] at read ⊢
  rw [JsonTree.known?, read, Option.map_some]
  simp

theorem items?_tree {ι α : Type} {read : JsonTree → Option α} {write : ι → JsonValue}
    {value : ι → α} (inverse : ∀ member, read (write member).tree = some (value member))
    (members : List ι) :
    (array (members.map write)).tree.items? read = some (members.map value) := by
  rw [tree, itemTrees_eq_map, List.map_map]
  exact Outcome.mapM_map_eq_some fun member _ => inverse member

end JsonValue

theorem CountsRecord.ofTree?_toJson (stats : SurfaceStats) :
    CountsRecord.ofTree? stats.toJson.tree = some (.ofStats stats) := by
  simp [CountsRecord.ofTree?, SurfaceStats.toJson, List.lookup_cons, CountsRecord.ofStats]

theorem CallSite.ofTree?_toJson (site : CallSite) :
    CallSite.ofTree? site.toJson.tree = some site := by
  rcases site with ⟨unit, method, _ | line⟩ <;>
    simp [CallSite.ofTree?, CallSite.toJson, List.lookup_cons]

theorem MethodRecord.ofTree?_toJson (key : MethodKey) (sites : OrderedSet CallSite) :
    MethodRecord.ofTree? (key.toJson sites).tree = some (.ofMethod key sites) := by
  have members := JsonValue.items?_tree CallSite.ofTree?_toJson sites.elements
  simp [MethodRecord.ofTree?, MethodKey.toJson, List.lookup_cons, members, MethodRecord.ofMethod]

theorem SurfaceRecord.ofTree?_toJson (name : String) (calls : MethodCalls) (row : SurfaceStats) :
    SurfaceRecord.ofTree? (calls.toJson name row).tree = some (.ofCalls name calls row) := by
  have members := JsonValue.items?_tree
    (fun method : MethodKey × OrderedSet CallSite =>
      MethodRecord.ofTree?_toJson method.1 method.2) calls.entries
  simp [SurfaceRecord.ofTree?, MethodCalls.toJson, List.lookup_cons, members, SurfaceRecord.ofCalls,
    CountsRecord.ofTree?_toJson]

theorem ReportRecord.ofTree?_toJson (report : CoverageReport) :
    ReportRecord.ofTree? report.toJson.tree = some (.ofReport report) := by
  have members := JsonValue.items?_tree
    (fun pair : (String × MethodCalls) × SurfaceStats =>
      SurfaceRecord.ofTree?_toJson pair.1.1 pair.1.2 pair.2)
    (report.surfaces.entries.zip report.summary.surfaces)
  simp [ReportRecord.ofTree?, CoverageReport.toJson, List.lookup_cons, members, ReportRecord.ofReport,
    CountsRecord.ofTree?_toJson]

/-! ## The document of a report -/

theorem SurfaceStats.nests_toJson (stats : SurfaceStats) (levels : Nat) :
    stats.toJson.Nests (levels + 2) := by
  simp [SurfaceStats.toJson, JsonValue.Nests]

theorem CallSite.nests_toJson (site : CallSite) (levels : Nat) :
    site.toJson.Nests (levels + 2) := by
  rcases site with ⟨unit, method, _ | line⟩ <;> simp [CallSite.toJson, JsonValue.Nests]

theorem MethodKey.nests_toJson (key : MethodKey) (sites : OrderedSet CallSite) (levels : Nat) :
    (key.toJson sites).Nests (levels + 4) := by
  simp [MethodKey.toJson, JsonValue.Nests, CallSite.nests_toJson]

theorem MethodCalls.nests_toJson (surface : String) (calls : MethodCalls) (row : SurfaceStats)
    (levels : Nat) : (calls.toJson surface row).Nests (levels + 6) := by
  simp only [MethodCalls.toJson, JsonValue.Nests, List.forall_mem_cons, List.forall_mem_map]
  exact ⟨trivial, SurfaceStats.nests_toJson _ _, fun method _ =>
    MethodKey.nests_toJson method.1 method.2 levels, List.forall_mem_nil _⟩

theorem CoverageReport.nests_toJson (report : CoverageReport) (levels : Nat) :
    report.toJson.Nests (levels + 8) := by
  simp only [CoverageReport.toJson, JsonValue.Nests, List.forall_mem_cons, List.forall_mem_map]
  exact ⟨SurfaceStats.nests_toJson _ _, fun pair _ =>
    MethodCalls.nests_toJson pair.1.1 pair.1.2 pair.2 levels, List.forall_mem_nil _⟩

/-- The document of a report is read back into a record with everything the report holds. -/
theorem ReportRecord.ofText?_json (report : CoverageReport) :
    ofText? report.json = some (ofReport report) := by
  have document := JsonValue.ofText?_document (report.nests_toJson 120)
  rw [ofText?, CoverageReport.json, document, Option.bind_some, ofTree?_toJson]

/-! ## From records to reports -/

/-- No surface is lost beside the summary, and each stands beside its own row. -/
theorem ReportRecord.surfaces_ofReport (report : CoverageReport) :
    (ofReport report).surfaces = report.surfaces.entries.map fun (name, calls) =>
      .ofCalls name calls (.ofCalls name calls) := by
  rw [ofReport, CoverageReport.zip_summary, List.map_map]
  rfl

theorem SurfaceRecord.toCalls_ofCalls (name : String) (calls : MethodCalls) (row : SurfaceStats) :
    (ofCalls name calls row).toCalls = calls := by
  have sets (sites : OrderedSet CallSite) : OrderedSet.ofList sites.elements = sites :=
    OrderedSet.ext_mem fun _ => OrderedSet.mem_ofList
  simp only [toCalls, ofCalls, List.foldl_map, MethodRecord.key, MethodRecord.ofMethod, sets]
  exact calls.foldl_insert_entries

theorem ReportRecord.toReport_ofReport (report : CoverageReport) :
    (ofReport report).toReport = report := by
  simp only [toReport, surfaces_ofReport, List.foldl_map, SurfaceRecord.toCalls_ofCalls]
  exact congrArg CoverageReport.mk report.surfaces.foldl_insert_entries

theorem SurfaceRecord.recount_ofCalls (name : String) (calls : MethodCalls) (row : SurfaceStats) :
    (ofCalls name calls row).recount = .ofCalls name calls := by
  simp only [recount, ofCalls, SurfaceStats.ofCalls, OrderedMap.values, OrderedMap.size,
    List.length_map, List.countP_map, sumBy_map]
  rfl

/-- The rows of the summary are read back in their order and under their names. -/
theorem ReportRecord.rows_ofReport (report : CoverageReport) :
    (ofReport report).surfaces.map (fun surface => (surface.name, surface.summary)) =
      report.summary.surfaces.map fun row => (row.surface, .ofStats row) := by
  rw [surfaces_ofReport, CoverageReport.summary, List.map_map, List.map_map]
  rfl

theorem ReportRecord.describes_ofReport (report : CoverageReport) :
    (ofReport report).Describes report where
  rebuilt := toReport_ofReport report
  covered := by
    simp only [surfaces_ofReport, SurfaceRecord.ofCalls, List.forall_mem_map]
    rintro ⟨name, calls⟩ _ ⟨key, sites⟩ _
    simp [MethodRecord.ofMethod, OrderedSet.isEmpty]
  counted := by
    simp only [surfaces_ofReport, List.forall_mem_map]
    rintro ⟨name, calls⟩ _
    rw [SurfaceRecord.recount_ofCalls]
    rfl
  aligned := rows_ofReport report

/-- A report is read back from its JSON document as it is, so reports with one document are equal. Every
method is marked as covered exactly if it has a call site, and every surface stands beside the counts
of its own methods, which are those of its row in the summary. -/
theorem CoverageReport.json_lossless :
    Function.Injective CoverageReport.json ∧
      ∀ report : CoverageReport, ∃ record,
        ReportRecord.ofText? report.json = some record ∧ record.Describes report := by
  refine ⟨fun first second same => ?_, fun report =>
    ⟨.ofReport report, ReportRecord.ofText?_json report, ReportRecord.describes_ofReport report⟩⟩
  have records : ReportRecord.ofReport first = .ofReport second := by
    refine Option.some.inj ?_
    rw [← ReportRecord.ofText?_json, same, ReportRecord.ofText?_json]
  rw [← ReportRecord.toReport_ofReport first, records, ReportRecord.toReport_ofReport]

end ApiCoverage
