/-!
# Configuration values

The values of a TOML document. Integers are kept as numbers; floats and moments in time are kept as
they are written, because nothing in this project computes with them. A record is a table with a
fixed set of field names; an array of the field values in order stands for the same record.
-/

namespace ApiCoverage.Toml

/-- A value of a TOML document. -/
inductive Value where
  | string (text : String)
  | integer (value : Int)
  | float (text : String)
  | boolean (value : Bool)
  | moment (text : String)
  | array (items : List Value)
  | table (entries : List (String × Value))

/-- Why a document is refused. -/
inductive Fault where
  /-- The text from a line on is no TOML. -/
  | unreadable (line : Nat)
  /-- A key or table is defined a second time, or a value is extended like a table. -/
  | redefined (key : String)
  /-- The document does not have the shape that its reader asks for. -/
  | mismatch
  deriving DecidableEq, Repr

/-- The message for a refusal. -/
def Fault.message : Fault → String
  | unreadable line => s!"line {line} cannot be read"
  | redefined key => s!"`{key}` is defined more than once"
  | mismatch => "a key is unknown or missing, or a value has the wrong type"

/-- The outcome of a reading step. -/
abbrev Outcome := Except Fault

namespace Value

/-- The text of a string. -/
def asString : Value → Outcome String
  | string text => .ok text
  | _ => .error .mismatch

/-- A truth value. -/
def asBool : Value → Outcome Bool
  | boolean value => .ok value
  | _ => .error .mismatch

/-- The items of an array, each read in the same way. -/
def asList {α : Type} (item : Value → Outcome α) : Value → Outcome (List α)
  | array items => items.mapM item
  | _ => .error .mismatch

/-- The texts of an array of strings. -/
def asStrings : Value → Outcome (List String) :=
  asList asString

/-- A choice among named alternatives: the name as a string, or a table whose one key is the name
and whose value is empty. -/
def asChoice {α : Type} (ofWord : String → Option α) (value : Value) : Outcome α :=
  let chosen := match value with
    | string word => ofWord word
    | table [(word, table [])] => ofWord word
    | table [(word, array [])] => ofWord word
    | _ => none
  match chosen with
  | some choice => .ok choice
  | none => .error .mismatch

end Value

/-- The fields of a record. -/
structure Record where
  entries : List (String × Value)
  /-- Whether the record was written as an array of its fields. -/
  positional : Bool

namespace Record

/-- The record in a value. A table has no other keys than the field names; an array gives the
fields in order, and further items mean nothing. -/
def ofValue (names : List String) : Value → Outcome Record
  | .table entries =>
      if entries.all fun entry => names.contains entry.1 then .ok ⟨entries, false⟩
      else .error .mismatch
  | .array items => .ok ⟨names.zip items, true⟩
  | _ => .error .mismatch

/-- A field that must be present. -/
def required {α : Type} (record : Record) (name : String) (read : Value → Outcome α) :
    Outcome α :=
  match record.entries.lookup name with
  | some value => read value
  | none => .error .mismatch

/-- A field that has a default. -/
def withDefault {α : Type} (record : Record) (name : String) (read : Value → Outcome α)
    (default : α) : Outcome α :=
  match record.entries.lookup name with
  | some value => read value
  | none => .ok default

/-- A field that may be absent from a table; in an array its place cannot be left empty. -/
def optional {α : Type} (record : Record) (name : String) (read : Value → Outcome α) :
    Outcome (Option α) :=
  match record.entries.lookup name with
  | some value => (read value).map some
  | none => if record.positional then .error .mismatch else .ok none

end Record

end ApiCoverage.Toml
