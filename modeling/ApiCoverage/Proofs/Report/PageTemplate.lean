import ApiCoverage.Proofs.Report.Counts

/-!
# Pages as filled templates

A page is a template with holes, and the template depends on the shape of the report alone: how many
surfaces there are, how many methods each of them has, and how many call sites each of those. Numbers
and escaped texts stand in the holes. They bring no bracket and no quote with them, so whatever the
names of a report are, the markup of its page is that of the template.
-/

namespace ApiCoverage

namespace Html

/-! ## Templates -/

/-- A place of a template. -/
inductive Slot where
  /-- Markup, written as it stands. -/
  | markup (text : String)
  /-- A place for a number or a text. -/
  | hole
  deriving DecidableEq, Repr

/-- A template with the holes filled in order. A hole for which nothing is left stays empty. -/
def fill : List Slot → List String → String
  | [], _ => ""
  | .markup written :: slots, fillings => written ++ fill slots fillings
  | .hole :: slots, [] => fill slots []
  | .hole :: slots, filling :: fillings => filling ++ fill slots fillings

/-- The place that a piece takes in a template. -/
def Piece.slot : Piece → Slot
  | markup written => .markup written
  | text _ => .hole

/-- The text that a piece puts into a hole. -/
def Piece.shown? : Piece → Option String
  | markup _ => none
  | text shown => some shown

/-- A page is the template of its pieces, filled with their texts as they are written. -/
theorem render_eq_fill (pieces : List Piece) :
    render pieces = fill (pieces.map Piece.slot) ((pieces.filterMap Piece.shown?).map escape) := by
  induction pieces with
  | nil => rfl
  | cons piece rest ih =>
      have first : render (piece :: rest) = piece.render ++ render rest := String.join_cons
      rw [first, ih]
      cases piece <;> rfl

theorem count_hole (pieces : List Piece) :
    (pieces.map Piece.slot).count .hole = (pieces.filterMap Piece.shown?).length := by
  induction pieces with
  | nil => rfl
  | cons piece rest ih =>
      cases piece with
      | markup written =>
          rw [List.filterMap_cons_none rfl, List.map_cons, List.count_cons_of_ne (by nofun), ih]
      | text shown =>
          have filled : (Piece.text shown).shown? = some shown := rfl
          rw [List.filterMap_cons_some filled, List.map_cons, List.length_cons, ← ih]
          exact List.count_cons_self

/-- To fill every hole with nothing is to fill none. -/
theorem fill_map_empty {α : Type} (slots : List Slot) (fillings : List α) :
    fill slots (fillings.map fun _ => "") = fill slots [] := by
  induction slots generalizing fillings with
  | nil => rfl
  | cons slot slots ih =>
      cases slot with
      | markup written => rw [fill, fill, ih]
      | hole =>
          cases fillings with
          | nil => rfl
          | cons filling fillings => rw [List.map_cons, fill, fill, String.empty_append, ih]

/-- The characters that open and close markup. -/
def isMarkupChar (char : Char) : Bool :=
  char == '<' || char == '>' || char == '"'

/-- Fillings without such characters leave those of the template as they are. -/
theorem filter_isMarkupChar_fill (slots : List Slot) {fillings : List String}
    (clean : ∀ filling ∈ fillings, ∀ char ∈ filling.toList, isMarkupChar char = false) :
    (fill slots fillings).toList.filter isMarkupChar =
      (fill slots []).toList.filter isMarkupChar := by
  induction slots generalizing fillings with
  | nil => rfl
  | cons slot slots ih =>
      cases slot with
      | markup written =>
          rw [fill, fill, String.toList_append, String.toList_append, List.filter_append,
            List.filter_append, ih clean]
      | hole =>
          cases fillings with
          | nil => rfl
          | cons filling fillings =>
              have without : filling.toList.filter isMarkupChar = [] := by
                rw [List.filter_eq_nil_iff]
                intro char member
                simp [clean filling List.mem_cons_self char member]
              rw [fill, fill, String.toList_append, List.filter_append, without, List.nil_append]
              exact ih fun other member => clean other (List.mem_cons_of_mem _ member)

/-! ## Escaped texts -/

/-- What is written in place of a character that has a meaning in markup. -/
def entities : List String :=
  ["&amp;", "&lt;", "&gt;", "&quot;"]

/-- A character is written as an entity or as itself, and as itself only if it has no meaning in
markup. -/
theorem escapeChar_cases (char : Char) :
    (∃ entity ∈ entities, escapeChar char = entity.toList) ∨
      escapeChar char = [char] ∧ char ≠ '&' ∧ isMarkupChar char = false := by
  unfold escapeChar
  split
  case h_1 => exact .inl ⟨"&amp;", by decide, rfl⟩
  case h_2 => exact .inl ⟨"&lt;", by decide, rfl⟩
  case h_3 => exact .inl ⟨"&gt;", by decide, rfl⟩
  case h_4 => exact .inl ⟨"&quot;", by decide, rfl⟩
  case h_5 ampersand less greater quote =>
    exact .inr ⟨rfl, ampersand, by simpa [isMarkupChar, and_assoc] using ⟨less, greater, quote⟩⟩

theorem isMarkupChar_of_mem_escape {text : String} {char : Char}
    (member : char ∈ (escape text).toList) : isMarkupChar char = false := by
  rw [escape, String.toList_ofList, List.mem_flatMap] at member
  obtain ⟨original, -, written⟩ := member
  rcases escapeChar_cases original with ⟨entity, listed, replaced⟩ | ⟨kept, -, plain⟩
  · have harmless : ∀ entity ∈ entities, ∀ char ∈ entity.toList, isMarkupChar char = false := by
      simp [entities, isMarkupChar]
    rw [replaced] at written
    exact harmless entity listed char written
  · rw [kept, List.mem_singleton] at written
    rw [written]
    exact plain

/-- What begins with a character begins behind the characters in front that are others. -/
theorem suffix_of_suffix_append {char : Char} {rest front back : List Char} (absent : char ∉ front)
    (suffix : char :: rest <:+ front ++ back) : char :: rest <:+ back := by
  induction front with
  | nil => exact suffix
  | cons first front ih =>
      rw [List.mem_cons, not_or] at absent
      rw [List.cons_append, List.suffix_cons_iff] at suffix
      rcases suffix with whole | later
      · exact absurd (List.cons.inj whole).1 absent.1
      · exact ih absent.2 later

/-- Every ampersand of an escaped text opens an entity. -/
theorem exists_entity_of_suffix {chars rest : List Char}
    (suffix : '&' :: rest <:+ chars.flatMap escapeChar) :
    ∃ entity ∈ entities, entity.toList <+: '&' :: rest := by
  induction chars with
  | nil => simp at suffix
  | cons char others ih =>
      rw [List.flatMap_cons] at suffix
      rcases escapeChar_cases char with ⟨entity, listed, replaced⟩ | ⟨kept, plain, -⟩
      · -- An entity has no ampersand but its first character.
        have opens : ∀ entity ∈ entities, entity.toList.head? = some '&' ∧
            '&' ∉ entity.toList.tail := by
          simp [entities]
        obtain ⟨tail, spelled⟩ := List.head?_eq_some_iff.1 (opens entity listed).1
        have single : '&' ∉ tail := by simpa [spelled] using (opens entity listed).2
        rw [replaced, spelled, List.cons_append, List.suffix_cons_iff] at suffix
        rcases suffix with whole | later
        · exact ⟨entity, listed, by rw [whole, spelled]; exact ⟨_, rfl⟩⟩
        · exact ih (suffix_of_suffix_append single later)
      · rw [kept] at suffix
        exact ih (suffix_of_suffix_append (by simpa using plain.symm) suffix)

/-- The characters for which some others are written. -/
def unescapeChars : List Char → List Char
  | '&' :: 'a' :: 'm' :: 'p' :: ';' :: rest => '&' :: unescapeChars rest
  | '&' :: 'l' :: 't' :: ';' :: rest => '<' :: unescapeChars rest
  | '&' :: 'g' :: 't' :: ';' :: rest => '>' :: unescapeChars rest
  | '&' :: 'q' :: 'u' :: 'o' :: 't' :: ';' :: rest => '"' :: unescapeChars rest
  | char :: rest => char :: unescapeChars rest
  | [] => []

/-- The text for which another is written. -/
def unescape (text : String) : String :=
  String.ofList (unescapeChars text.toList)

theorem unescapeChars_escapeChar (char : Char) (rest : List Char) :
    unescapeChars (escapeChar char ++ rest) = char :: unescapeChars rest := by
  unfold escapeChar
  split
  case h_5 plain _ _ _ =>
    rw [List.singleton_append, unescapeChars]
    all_goals rintro _ rfl
    all_goals exact absurd rfl plain
  all_goals rfl

theorem unescapeChars_flatMap (chars : List Char) :
    unescapeChars (chars.flatMap escapeChar) = chars := by
  induction chars with
  | nil => rfl
  | cons char rest ih => rw [List.flatMap_cons, unescapeChars_escapeChar, ih]

theorem unescape_escape (text : String) : unescape (escape text) = text := by
  rw [unescape, escape, String.toList_ofList, unescapeChars_flatMap, String.ofList_toList]

/-! ## What stands in the holes -/

/-- What stands in a hole. -/
inductive Hole where
  | number (value : Nat)
  | text (shown : String)
  deriving DecidableEq, Repr

namespace Hole

/-- What a hole shows. -/
def original : Hole → String
  | number value => toString value
  | text shown => shown

/-- What is written into a hole: the digits of a number, or an escaped text. -/
def written : Hole → String
  | number value => toString value
  | text shown => escape shown

theorem escape_original (hole : Hole) : escape hole.original = hole.written := by
  cases hole with
  | number value => exact escape_natural value
  | text shown => rfl

theorem isMarkupChar_of_mem {hole : Hole} {char : Char} (member : char ∈ hole.written.toList) :
    isMarkupChar char = false := by
  rw [← escape_original] at member
  exact isMarkupChar_of_mem_escape member

theorem exists_entity {hole : Hole} {front rest : List Char}
    (split : hole.written.toList = front ++ '&' :: rest) :
    ∃ entity ∈ entities, entity.toList <+: '&' :: rest := by
  rw [← escape_original, escape, String.toList_ofList] at split
  exact exists_entity_of_suffix ⟨front, split.symm⟩

theorem unescape_written (hole : Hole) : unescape hole.written = hole.original := by
  rw [← escape_original, unescape_escape]

end Hole

/-! ## The template of a page and the contents of its holes -/

/-- The template of a call site. -/
def siteTemplate : List Slot :=
  (callSite none ⟨"", "", none⟩).map Piece.slot

/-- The template of a method with so many call sites. -/
def methodTemplate (sites : Nat) : List Slot :=
  (methodOpening ⟨"", ""⟩).map Piece.slot ++
    (if sites = 0 then [uncovered.slot] else (List.replicate sites siteTemplate).flatten) ++
    methodClosing.map Piece.slot

/-- The template of a surface whose methods have so many call sites each. -/
def surfaceTemplate (methods : List Nat) : List Slot :=
  (surfaceOpening "" .empty).map Piece.slot ++ methods.flatMap methodTemplate ++
    surfaceClosing.map Piece.slot

/-- The template of a page with surfaces of these methods. -/
def pageTemplate (surfaces : List (List Nat)) : List Slot :=
  (opening "").map Piece.slot ++ surfaces.flatMap surfaceTemplate ++ closing.map Piece.slot

/-- What is left of a page when its holes are left empty. -/
def skeleton (surfaces : List (List Nat)) : String :=
  fill (pageTemplate surfaces) []

/-- The holes of a call site. -/
def siteHoles (linkBase : Option String) (site : CallSite) : List Hole :=
  [.text (site.unit ++ "." ++ site.method), .text (linkTarget linkBase site),
    .text (linkText site)]

/-- The holes of a method. -/
def methodHoles (linkBase : Option String) (key : MethodKey) (sites : OrderedSet CallSite) :
    List Hole :=
  .text key.fullSignature :: sites.elements.flatMap (siteHoles linkBase)

/-- The holes of a surface. -/
def surfaceHoles (linkBase : Option String) (name : String) (calls : MethodCalls) : List Hole :=
  let stats := SurfaceStats.ofCalls name calls
  [.text name, .number stats.covered, .number stats.tracked] ++
    calls.entries.flatMap fun (key, sites) => methodHoles linkBase key sites

theorem map_slot_callSite (linkBase : Option String) (site : CallSite) :
    (callSite linkBase site).map Piece.slot = siteTemplate := by
  simp only [callSite, siteTemplate, List.map_cons, List.map_nil, Piece.slot]

theorem map_slot_callSites (linkBase : Option String) (sites : List CallSite) :
    (sites.flatMap (callSite linkBase)).map Piece.slot =
      (List.replicate sites.length siteTemplate).flatten := by
  rw [List.map_flatMap, ← List.map_const', ← List.flatMap_def]
  simp only [map_slot_callSite]

theorem map_slot_method (linkBase : Option String) (key : MethodKey) (sites : OrderedSet CallSite) :
    (method linkBase key sites).map Piece.slot = methodTemplate sites.elements.length := by
  have opened : (methodOpening key).map Piece.slot = (methodOpening ⟨"", ""⟩).map Piece.slot := by
    simp only [methodOpening, List.map_cons, List.map_nil, Piece.slot]
  rw [method, List.map_append, List.map_append, methodTemplate, opened, apply_ite (List.map Piece.slot),
    map_slot_callSites]
  simp only [OrderedSet.isEmpty, List.isEmpty_iff, List.length_eq_zero_iff]
  rfl

theorem map_slot_surface (linkBase : Option String) (name : String) (calls : MethodCalls) :
    (surface linkBase name calls).map Piece.slot =
      surfaceTemplate (calls.entries.map fun (_, sites) => sites.elements.length) := by
  have opened : (surfaceOpening name calls).map Piece.slot =
      (surfaceOpening "" .empty).map Piece.slot := by
    simp only [surfaceOpening, List.map_cons, List.map_nil, Piece.slot]
  rw [surface, List.map_append, List.map_append, surfaceTemplate, List.map_flatMap, opened,
    List.flatMap_map]
  simp only [map_slot_method]

theorem filterMap_shown_callSite (linkBase : Option String) (site : CallSite) :
    (callSite linkBase site).filterMap Piece.shown? = (siteHoles linkBase site).map Hole.original :=
  rfl

theorem filterMap_shown_method (linkBase : Option String) (key : MethodKey)
    (sites : OrderedSet CallSite) :
    (method linkBase key sites).filterMap Piece.shown? =
      (methodHoles linkBase key sites).map Hole.original := by
  have inner : (if sites.isEmpty then [uncovered] else sites.elements.flatMap
      (callSite linkBase)).filterMap Piece.shown? =
        (sites.elements.flatMap (siteHoles linkBase)).map Hole.original := by
    rcases sites with ⟨_ | ⟨first, rest⟩, increasing⟩
    · rfl
    · simp only [OrderedSet.isEmpty, List.isEmpty_cons, Bool.false_eq_true, if_false,
        List.filterMap_flatMap, List.map_flatMap, filterMap_shown_callSite]
  have opened : (methodOpening key).filterMap Piece.shown? = [key.fullSignature] := rfl
  have closed : methodClosing.filterMap Piece.shown? = [] := rfl
  rw [method, List.filterMap_append, List.filterMap_append, inner, opened, closed, List.append_nil]
  rfl

theorem filterMap_shown_surface (linkBase : Option String) (name : String) (calls : MethodCalls) :
    (surface linkBase name calls).filterMap Piece.shown? =
      (surfaceHoles linkBase name calls).map Hole.original := by
  have opened : (surfaceOpening name calls).filterMap Piece.shown? =
      [name, toString (SurfaceStats.ofCalls name calls).covered,
        toString (SurfaceStats.ofCalls name calls).tracked] := rfl
  have closed : surfaceClosing.filterMap Piece.shown? = [] := rfl
  rw [surface, List.filterMap_append, List.filterMap_append, List.filterMap_flatMap, opened, closed,
    List.append_nil, surfaceHoles, List.map_append, List.map_flatMap]
  simp only [filterMap_shown_method]
  rfl

end Html

namespace CoverageReport

/-- How many call sites every method of every surface has. -/
def shape (report : CoverageReport) : List (List Nat) :=
  report.surfaces.entries.map fun (_, calls) =>
    calls.entries.map fun (_, sites) => sites.elements.length

/-- What stands in the holes of the page of a report. -/
def htmlHoles (title : String) (linkBase : Option String) (report : CoverageReport) :
    List Html.Hole :=
  [.text title, .text title] ++
    report.surfaces.entries.flatMap fun (name, calls) => Html.surfaceHoles linkBase name calls

theorem map_slot_htmlPieces (title : String) (linkBase : Option String) (report : CoverageReport) :
    (report.htmlPieces title linkBase).map Html.Piece.slot = Html.pageTemplate report.shape := by
  have opened : (Html.opening title).map Html.Piece.slot =
      (Html.opening "").map Html.Piece.slot := by
    simp only [Html.opening, List.map_cons, List.map_nil, Html.Piece.slot]
  rw [htmlPieces, List.map_append, List.map_append, Html.pageTemplate, opened, List.map_flatMap, shape,
    List.flatMap_map]
  simp only [Html.map_slot_surface]

theorem filterMap_shown_htmlPieces (title : String) (linkBase : Option String)
    (report : CoverageReport) :
    (report.htmlPieces title linkBase).filterMap Html.Piece.shown? =
      (report.htmlHoles title linkBase).map Html.Hole.original := by
  have opened : (Html.opening title).filterMap Html.Piece.shown? = [title, title] := rfl
  have closed : Html.closing.filterMap Html.Piece.shown? = [] := rfl
  rw [htmlPieces, List.filterMap_append, List.filterMap_append, List.filterMap_flatMap, opened, closed,
    List.append_nil, htmlHoles, List.map_append, List.map_flatMap]
  simp only [Html.filterMap_shown_surface]
  rfl

/-- The page of a report is its template, filled with what stands in its holes. -/
theorem html_eq_fill (title : String) (linkBase : Option String) (report : CoverageReport) :
    report.html title linkBase = Html.fill (Html.pageTemplate report.shape)
      ((report.htmlHoles title linkBase).map Html.Hole.written) := by
  rw [html, Html.render_eq_fill, map_slot_htmlPieces, filterMap_shown_htmlPieces, List.map_map]
  exact congrArg _ (List.map_congr_left fun hole _ => hole.escape_original)

/-- The names of a report bring no markup into its page. -/
structure MarkupFixed (title : String) (linkBase : Option String) (report : CoverageReport) :
    Prop where
  /-- The page is a template for the shape of the report, with a hole for each number and text. -/
  filled : report.html title linkBase = Html.fill (Html.pageTemplate report.shape)
    ((report.htmlHoles title linkBase).map Html.Hole.written)
  counted : (Html.pageTemplate report.shape).count .hole =
    (report.htmlHoles title linkBase).length
  /-- With nothing in any hole the skeleton for the shape is left. -/
  emptied : Html.fill (Html.pageTemplate report.shape)
    ((report.htmlHoles title linkBase).map fun _ => "") = Html.skeleton report.shape
  /-- The page has the brackets and the quotes of the skeleton, and no other ones. -/
  markup : (report.html title linkBase).toList.filter Html.isMarkupChar =
    (Html.skeleton report.shape).toList.filter Html.isMarkupChar
  bare : ∀ hole ∈ report.htmlHoles title linkBase, ∀ char ∈ hole.written.toList,
    char ≠ '<' ∧ char ≠ '>' ∧ char ≠ '"'
  /-- An ampersand in a hole is the first character of an entity. -/
  entities : ∀ hole ∈ report.htmlHoles title linkBase, ∀ front rest,
    hole.written.toList = front ++ '&' :: rest →
      ∃ entity ∈ Html.entities, entity.toList <+: '&' :: rest
  restored : ∀ hole ∈ report.htmlHoles title linkBase,
    Html.unescape hole.written = hole.original

/-- Whatever the title, the link base and the names in a report are, its page has the markup of the
template, and all of them can be read off the page as they are. -/
theorem markupFixed (title : String) (linkBase : Option String) (report : CoverageReport) :
    report.MarkupFixed title linkBase where
  filled := report.html_eq_fill title linkBase
  counted := by
    rw [← report.map_slot_htmlPieces title linkBase, Html.count_hole, filterMap_shown_htmlPieces,
      List.length_map]
  emptied := Html.fill_map_empty _ _
  markup := by
    rw [html_eq_fill, Html.skeleton, Html.filter_isMarkupChar_fill]
    exact List.forall_mem_map.2 fun _ _ _ => Html.Hole.isMarkupChar_of_mem
  bare := by
    intro hole _ char member
    simpa [Html.isMarkupChar, and_assoc] using Html.Hole.isMarkupChar_of_mem member
  entities _ _ _ _ := Html.Hole.exists_entity
  restored hole _ := hole.unescape_written

end CoverageReport

end ApiCoverage
