import ApiCoverage.ClassFile.Instruction
import ApiCoverage.Ordered.Front

/-!
# Method bodies

The code of a method with the table that maps code offsets to source lines. The table is kept in
order of the offsets; entries with the same offset keep the order in which the file lists them.
The line of an offset is that of the last entry at or before it, and an offset before every entry
belongs to the first.
-/

namespace ApiCoverage.ClassFile

/-- A row of a line table: the code from `start` on stems from `line`. -/
structure LineEntry where
  start : UInt16
  line : UInt16
  deriving DecidableEq, Repr

/-- The code of a method and its line table, if it has one. -/
structure CodeBody where
  code : Bytes
  lines : Option (Array LineEntry)
  deriving DecidableEq, Repr

namespace CodeBody

/-- The body with a line table in any order. -/
def ofTable (code : Bytes) (table : Option (List LineEntry)) : CodeBody :=
  ⟨code, table.map fun entries =>
    (entries.mergeSort fun first second => first.start ≤ second.start).toArray⟩

/-- Whether the body has a line table with at least one entry. -/
def hasLineTable (body : CodeBody) : Bool :=
  body.lines.any fun entries => !entries.isEmpty

/-- The instructions of the body. -/
def instructions (body : CodeBody) : InstructionStream :=
  InstructionStream.ofBytes body.code

/-- The entry of a sorted table that an offset belongs to. -/
def entryFor (offset : Nat) (entries : Array LineEntry) : Option LineEntry :=
  entries[frontLength (fun entry => entry.start.toNat ≤ offset) entries - 1]?

/-- The source line of a code offset. -/
def lineFor (body : CodeBody) (offset : Nat) : Option Nat := do
  let entries ← body.lines
  let entry ← entryFor offset entries
  return entry.line.toNat

/-- The source line of the first instruction. -/
def firstLine (body : CodeBody) : Option Nat :=
  body.lineFor 0

end CodeBody

end ApiCoverage.ClassFile
