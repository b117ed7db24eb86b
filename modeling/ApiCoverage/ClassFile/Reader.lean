import ApiCoverage.Bytes
import ApiCoverage.ClassFile.Fault

/-!
# Reading class files byte by byte

A reader consumes bytes from the front of a cursor. The cursor knows how far into the file it
stands, so a reader that runs inside an attribute body still reports positions of the whole file.
Running out of bytes is the only fault that the primitives raise, and it names the exact deficit.
-/

namespace ApiCoverage.ClassFile

/-- The unread bytes of a section and the file offset of the first of them. -/
structure Cursor where
  offset : Nat
  rest : Bytes

/-- A step that consumes bytes, or refuses them. -/
abbrev Reader := StateT Cursor (Except Fault)

namespace Reader

variable {α β : Type}

/-- Refuses. -/
def fail (fault : Fault) : Reader α :=
  fun _ => .error fault

/-- The file offset of the next byte. -/
def position : Reader Nat :=
  fun cursor => .ok (cursor.offset, cursor)

/-- The next `count` bytes. -/
def take (part : Part) (count : Nat) : Reader Bytes :=
  fun cursor =>
    match Bytes.split? count cursor.rest with
    | some (front, rest) => .ok (front, ⟨cursor.offset + count, rest⟩)
    | none => .error (.truncated part cursor.offset count cursor.rest.length)

/-- The next byte. -/
def byte (part : Part) : Reader UInt8 := do
  let bytes ← take part 1
  return bytes.headD 0

/-- The next two bytes as a word. -/
def word (part : Part) : Reader UInt16 := do
  let bytes ← take part 2
  return Bytes.toUInt16 bytes

/-- The next four bytes as a word. -/
def doubleWord (part : Part) : Reader UInt32 := do
  let bytes ← take part 4
  return Bytes.toUInt32 bytes

/-- Runs a reader `count` times on top of the values in `done`, which stand in reverse. -/
def timesOnto (reader : Reader α) (done : List α) : Nat → Reader (List α)
  | 0 => fun cursor => .ok (done.reverse, cursor)
  | count + 1 => fun cursor =>
      match reader cursor with
      | .error fault => .error fault
      | .ok (value, next) => timesOnto reader (value :: done) count next

/-- Runs a reader `count` times and collects the values in order. -/
def times (count : Nat) (reader : Reader α) : Reader (List α) :=
  timesOnto reader [] count

/-- Runs a reader on a separate stretch of the file; bytes that it leaves are dropped. -/
def within (stretch : Cursor) (reader : Reader α) : Reader α :=
  fun cursor =>
    match reader stretch with
    | .error fault => .error fault
    | .ok (value, _) => .ok (value, cursor)

/-- The outcome of a partial lookup, which refuses where the lookup does. -/
def ofExcept (outcome : Except Fault α) : Reader α :=
  fun cursor => outcome.map fun value => (value, cursor)

end Reader

end ApiCoverage.ClassFile
