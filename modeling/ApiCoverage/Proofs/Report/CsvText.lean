import ApiCoverage.Proofs.Text.Layout
import ApiCoverage.Report.Csv

/-!
# Reading separated values

A record ends at a line feed and a field at a comma with a blank behind it, both outside quotes. In a
field that starts with a quote, a quote stands written twice. The main statement says that rows are
read back as they were, whatever characters their fields hold.
-/

namespace ApiCoverage

namespace Csv

/-! ## The reader -/

/-- Reads a field behind its opening quote up to the quote that closes it. -/
def readQuoted : List Char → Option (List Char × List Char)
  | [] => none
  | '"' :: '"' :: rest => (readQuoted rest).map fun (field, rest) => ('"' :: field, rest)
  | '"' :: rest => some ([], rest)
  | char :: rest => (readQuoted rest).map fun (field, rest) => (char :: field, rest)

/-- Reads a field without quotes up to a separator or the end of the record. -/
def readPlain : List Char → List Char × List Char
  | [] => ([], [])
  | ',' :: ' ' :: rest => ([], ',' :: ' ' :: rest)
  | '\n' :: rest => ([], '\n' :: rest)
  | char :: rest =>
      let (field, rest) := readPlain rest
      (char :: field, rest)

/-- Reads a field. -/
def readField : List Char → Option (List Char × List Char)
  | '"' :: rest => readQuoted rest
  | text => some (readPlain text)

/-- Reads the fields of a record and the line feed behind it. -/
def readRecord : Nat → List Char → Option (List String × List Char)
  | 0, _ => none
  | fuel + 1, text => do
      let (field, rest) ← readField text
      match rest with
      | '\n' :: rest => some ([String.ofList field], rest)
      | ',' :: ' ' :: rest =>
          let (fields, rest) ← readRecord fuel rest
          some (String.ofList field :: fields, rest)
      | _ => none

/-- Reads records up to the end of a text. -/
def readRecords : Nat → List Char → Option (List (List String))
  | _, [] => some []
  | 0, _ :: _ => none
  | fuel + 1, text => do
      let (record, rest) ← readRecord text.length text
      let records ← readRecords fuel rest
      return record :: records

/-- The records of a text. Every record takes a character. -/
def ofText? (text : String) : Option (List (List String)) :=
  readRecords text.length text.toList

/-! ## Fields -/

/-- Where a field ends: the next field follows, or the record ends. -/
inductive FieldEnd : List Char → Prop
  | separator (rest : List Char) : FieldEnd (',' :: ' ' :: rest)
  | record (rest : List Char) : FieldEnd ('\n' :: rest)

theorem readQuoted_doubleQuotes {rest : List Char} (ends : FieldEnd rest) (chars : List Char) :
    readQuoted (doubleQuotes chars ++ '"' :: rest) = some (chars, rest) := by
  induction chars with
  | nil => cases ends <;> simp [doubleQuotes, readQuoted]
  | cons char chars ih =>
      rw [doubleQuotes]
      split
      · next quote =>
          simp [readQuoted, ih, quote]
      · next other =>
          rw [List.cons_append, readQuoted] <;> simp [other, ih]

theorem needsQuotes_cons {char : Char} {chars : List Char}
    (plain : needsQuotes (char :: chars) = false) :
    char ≠ ',' ∧ char ≠ '"' ∧ char ≠ '\n' ∧ needsQuotes chars = false := by
  simpa [needsQuotes, not_or, and_assoc] using plain

theorem readPlain_append {rest : List Char} (ends : FieldEnd rest) {chars : List Char}
    (plain : needsQuotes chars = false) : readPlain (chars ++ rest) = (chars, rest) := by
  induction chars with
  | nil => cases ends <;> simp [readPlain]
  | cons char chars ih =>
      rcases needsQuotes_cons plain with ⟨comma, _, lineFeed, others⟩
      rw [List.cons_append, readPlain, ih others]
      · simp [comma]
      · exact lineFeed

/-- A field is read as it is written. -/
theorem readField_field {rest : List Char} (ends : FieldEnd rest) (text : String) :
    readField ((field text).toList ++ rest) = some (text.toList, rest) := by
  unfold field
  split
  · simpa [readField] using readQuoted_doubleQuotes ends text.toList
  · next quoteless =>
      have plain : needsQuotes text.toList = false := by simpa using quoteless
      rw [readField, readPlain_append ends plain]
      rintro others start
      cases chars : text.toList with
      | nil => cases ends <;> simp [chars] at start
      | cons char _ =>
          rw [chars] at plain start
          exact (needsQuotes_cons plain).2.1 (List.cons.inj start).1

/-! ## Records -/

theorem toList_row_cons (first : String) (rest : List String) :
    (row (first :: rest)).toList = (field first).toList ++
      if rest.isEmpty then [] else ',' :: ' ' :: (row rest).toList := by
  cases rest with
  | nil => simp [row]
  | cons second rest => simp [row, String.toList_intercalate]

/-- A row is read up to the line feed behind it. -/
theorem readRecord_row {fields : List String} (filled : fields ≠ []) {fuel : Nat}
    (enough : fields.length ≤ fuel) (rest : List Char) :
    readRecord fuel ((row fields).toList ++ '\n' :: rest) = some (fields, rest) := by
  induction fields generalizing fuel with
  | nil => exact absurd rfl filled
  | cons first others ih =>
      rcases fuel with _ | fuel
      · simp at enough
      rw [toList_row_cons]
      cases others with
      | nil => simp [readRecord, readField_field (.record rest)]
      | cons second others =>
          have later := ih (List.cons_ne_nil second others) (Nat.le_of_succ_le_succ enough)
          have separated : FieldEnd (',' :: ' ' :: ((row (second :: others)).toList ++ '\n' :: rest)) :=
            .separator _
          simp [readRecord, readField_field separated, later]

theorem length_le_length_row (fields : List String) :
    fields.length ≤ (row fields).toList.length + 1 := by
  induction fields with
  | nil => simp
  | cons first rest ih =>
      rw [toList_row_cons]
      cases rest with
      | nil => simp
      | cons second rest =>
          simp only [List.isEmpty_cons, Bool.false_eq_true, if_false, List.length_append,
            List.length_cons] at ih ⊢
          omega

/-- Rows are read up to the end of the text. -/
theorem readRecords_unlines {rows : List (List String)} (filled : ∀ fields ∈ rows, fields ≠ [])
    {fuel : Nat} (enough : rows.length ≤ fuel) :
    readRecords fuel (Text.unlines (rows.map row)).toList = some rows := by
  induction rows generalizing fuel with
  | nil => simp [readRecords]
  | cons fields rows ih =>
      rcases fuel with _ | fuel
      · simp at enough
      have later := ih (fun other member => filled other (List.mem_cons_of_mem _ member))
        (Nat.le_of_succ_le_succ enough)
      generalize text_eq : (Text.unlines ((fields :: rows).map row)).toList = text
      have shape : text = (row fields).toList ++ '\n' :: (Text.unlines (rows.map row)).toList := by
        simp [← text_eq]
      have long : fields.length ≤ text.length := by
        have short := length_le_length_row fields
        rw [shape, List.length_append, List.length_cons]
        omega
      have front : readRecord text.length text =
          some (fields, (Text.unlines (rows.map row)).toList) := by
        have read := readRecord_row (filled fields List.mem_cons_self) long
          (Text.unlines (rows.map row)).toList
        rwa [← shape] at read
      rw [readRecords, front]
      · simp [later]
      · simp [shape]

theorem length_le_length_unlines (lines : List String) :
    lines.length ≤ (Text.unlines lines).length := by
  induction lines with
  | nil => simp
  | cons line rest ih =>
      rw [Text.unlines_cons, String.length_append, String.length_append, List.length_cons]
      have feed : "\n".length = 1 := rfl
      omega

/-- Rows are read back as they were. -/
theorem ofText?_unlines {rows : List (List String)} (filled : ∀ fields ∈ rows, fields ≠ []) :
    ofText? (Text.unlines (rows.map row)) = some rows := by
  have enough := length_le_length_unlines (rows.map row)
  rw [List.length_map] at enough
  exact readRecords_unlines filled enough

end Csv

/-- The separated values of a report are read back as the header and the fields of every method. -/
theorem CoverageReport.ofText?_csv (report : CoverageReport) :
    Csv.ofText? report.csv = some (Csv.header :: report.csvRecords) := by
  refine Csv.ofText?_unlines fun fields member => ?_
  rcases List.mem_cons.1 member with rfl | method
  · exact List.cons_ne_nil _ _
  · rcases List.mem_map.1 method with ⟨⟨surface, key, sites⟩, _, rfl⟩
    exact List.cons_ne_nil _ _

namespace CoverageReport

/-- The fields of the methods, surface by surface and method by method as the report has them. -/
theorem csvRecords_eq (report : CoverageReport) :
    report.csvRecords =
      report.surfaces.entries.flatMap fun (surface, calls) =>
        calls.entries.map fun (key, sites) =>
          [surface, key.name ++ "@" ++ key.descriptor, toString sites.elements.length,
            if sites.elements = [] then "uncovered" else "covered"] := by
  simp only [csvRecords, methods, List.map_flatMap, List.map_map]
  refine List.flatMap_congr fun (surface, calls) _ => List.map_congr_left fun (key, sites) _ => ?_
  simp only [Function.comp_apply, Csv.record, Csv.status, OrderedSet.isEmpty, List.isEmpty_iff]
  rfl

/-- The separated values of a report are read back: first the names of the columns, then one record for
each tracked method in the order of the report, whatever characters its names hold. -/
theorem csv_readsBack (report : CoverageReport) :
    Csv.ofText? report.csv = some
      (["Interface/Class", "Method", "Call Count", "Status"] ::
        report.surfaces.entries.flatMap fun (surface, calls) =>
          calls.entries.map fun (key, sites) =>
            [surface, key.name ++ "@" ++ key.descriptor, toString sites.elements.length,
              if sites.elements = [] then "uncovered" else "covered"]) := by
  rw [ofText?_csv, csvRecords_eq]
  rfl

end CoverageReport

end ApiCoverage
