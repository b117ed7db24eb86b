import ApiCoverage.CommandLine.Program

/-!
# The outer layer of the program

The program sees the files whose paths stand on its standard input, one path per line, below the
working folder; a path that ends in a slash stands for a folder. It runs on the tree of these files,
writes the report file if the run wrote one, and prints what the run printed.
-/

open ApiCoverage

/-- The paths on a stream, one per line, after those in `done`, which stand in reverse. -/
partial def readPaths (stream : IO.FS.Stream) (done : List Path) : IO (List Path) := do
  let line ← stream.getLine
  if line.isEmpty then
    return done.reverse
  else
    readPaths stream (String.ofList (line.toList.filter (· != '\n')) :: done)

/-- The tree with the file or folder at a path added; a path that cannot be read adds nothing. -/
def addPath (tree : FileTree) (path : Path) : IO FileTree := do
  if path.toList.getLast? == some '/' then
    return tree.makeFolder path
  else
    match ← (IO.FS.readBinFile path).toBaseIO with
    | .ok content => return tree.add path (.file content.toList)
    | .error _ => return tree

/-- Writes the file that a run wrote. -/
def writeReport (outcome : CommandLine.Outcome) : IO Unit := do
  match outcome.written with
  | none => return
  | some path =>
      match outcome.tree.read path with
      | .ok content => IO.FS.writeBinFile path ⟨content.toArray⟩
      | .error _ => return

/-- Runs the program. -/
def main (arguments : List String) : IO UInt32 := do
  let paths ← readPaths (← IO.getStdin) []
  let tree ← paths.foldlM addPath ⟨.emptyFolder, []⟩
  let outcome := CommandLine.run tree arguments
  writeReport outcome
  IO.print outcome.stdout
  outcome.stderr.forM fun line => IO.eprintln line
  return outcome.status.toUInt32
