import ApiCoverage.Toml.Value

/-!
# Building tables

A document defines its tables piecewise: by headers, by headers of arrays of tables, and by dotted
keys. A table under construction remembers how it came to be, since that decides who may add to it:
a header may complete a table that so far only occurs on the way to another header, and dotted keys
may add to tables that dotted keys or such headers created. Finished values are closed.
-/

namespace ApiCoverage.Toml

/-- How a table came to be. -/
inductive Origin where
  /-- By a header of its own. -/
  | header
  /-- On the way to the table of another header. -/
  | path
  /-- On the way of a dotted key. -/
  | dotted
  deriving DecidableEq, Repr

/-- A part of a document under construction. -/
inductive Node where
  | value (value : Value)
  | table (origin : Origin) (entries : List (String × Node))
  | tables (items : List (List (String × Node)))

/-- The keys of a table under construction, and how the table came to be. -/
structure OpenTable where
  origin : Origin
  entries : List (String × Node)

namespace OpenTable

/-- The part at a key. -/
def get? (table : OpenTable) (key : String) : Option Node :=
  table.entries.lookup key

/-- The table with a part at a key, which replaces the one there. -/
def set (table : OpenTable) (key : String) (node : Node) : OpenTable :=
  let replaced := table.entries.map fun entry => if entry.1 == key then (key, node) else entry
  if table.entries.any fun entry => entry.1 == key then ⟨table.origin, replaced⟩
  else ⟨table.origin, table.entries ++ [(key, node)]⟩

/-- Whether dotted keys may lead through the table. -/
def admitsDotted (table : OpenTable) : Bool :=
  table.origin != .header

/-- Acts on the table at the end of a key path and creates the tables that are missing on the way;
`origin` is that of the created tables. An array of tables stands for its last table. -/
def descend (origin : Origin) (act : OpenTable → Outcome OpenTable) :
    List String → OpenTable → Outcome OpenTable
  | [], table => act table
  | key :: rest, table =>
      match table.get? key with
      | none => do
          let child ← descend origin act rest ⟨origin, []⟩
          return table.set key (.table child.origin child.entries)
      | some (.table childOrigin entries) =>
          let child : OpenTable := ⟨childOrigin, entries⟩
          if origin == .dotted && !child.admitsDotted then .error (.redefined key)
          else do
            let child ← descend origin act rest child
            return table.set key (.table child.origin child.entries)
      | some (.tables items) =>
          match items.getLast? with
          | none => .error (.redefined key)
          | some last => do
              let child ← descend origin act rest ⟨.header, last⟩
              return table.set key (.tables (items.dropLast ++ [child.entries]))
      | some (.value _) => .error (.redefined key)

/-- Adds a value under a key that the table lacks. Dotted keys end in a table of dotted keys, and
plain keys do not. -/
def addPlain (dotted : Bool) (key : String) (value : Value) (table : OpenTable) :
    Outcome OpenTable :=
  if (table.origin == .dotted) != dotted then .error (.redefined key)
  else
    match table.get? key with
    | some _ => .error (.redefined key)
    | none => .ok (table.set key (.value value))

/-- Adds a value under a key, which may be dotted: `path` leads to the table of the key. -/
def addPair (path : List String) (key : String) (value : Value) (table : OpenTable) :
    Outcome OpenTable :=
  descend .dotted (addPlain (!path.isEmpty) key value) path table

/-- Opens the table of a header. -/
def openHeader (key : String) (table : OpenTable) : Outcome OpenTable :=
  match table.get? key with
  | none => .ok (table.set key (.table .header []))
  | some (.table .path entries) => .ok (table.set key (.table .header entries))
  | some _ => .error (.redefined key)

/-- Opens a further table of an array of tables. -/
def openItem (key : String) (table : OpenTable) : Outcome OpenTable :=
  match table.get? key with
  | none => .ok (table.set key (.tables [[]]))
  | some (.tables items) => .ok (table.set key (.tables (items ++ [[]])))
  | some _ => .error (.redefined key)

end OpenTable

mutual

/-- The finished value of a part. -/
def Node.close : Node → Value
  | .value value => value
  | .table _ entries => .table (closeEntries entries)
  | .tables items => .array (closeTables items)

/-- The finished values of keys. -/
def closeEntries : List (String × Node) → List (String × Value)
  | [] => []
  | (key, node) :: rest => (key, node.close) :: closeEntries rest

/-- The finished values of tables. -/
def closeTables : List (List (String × Node)) → List Value
  | [] => []
  | entries :: rest => .table (closeEntries entries) :: closeTables rest

end

end ApiCoverage.Toml
