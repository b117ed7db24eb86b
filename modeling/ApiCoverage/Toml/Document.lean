import ApiCoverage.Toml.Quoted
import ApiCoverage.Toml.Scalar
import ApiCoverage.Toml.Table

/-!
# TOML documents

A document is a sequence of expressions, one a line: key-value pairs, table headers and headers of
arrays of tables. Reading splits the text into expressions; building adds them up to one table.
-/

namespace ApiCoverage.Toml

/-- A line of a document that says something. -/
inductive Expression where
  | pair (path : List String) (key : String) (value : Value)
  | header (path : List String) (key : String)
  | itemHeader (path : List String) (key : String)

namespace Expression

open Quoted (isPlain isSpace lineEnd?)

/-- Drops spaces and tabs. -/
def dropSpaces (chars : List Char) : List Char :=
  chars.dropWhile isSpace

/-- The characters after a comment, if one comes first and holds no control characters. -/
def dropComment? : List Char → Option (List Char)
  | '#' :: rest => some (rest.dropWhile isPlain)
  | _ => none

/-- Drops spaces, line ends and comments, as they may stand inside arrays; `fuel` bounds their
number. -/
def dropFiller : Nat → List Char → List Char
  | 0, chars => chars
  | fuel + 1, chars =>
      let rest := dropSpaces chars
      match lineEnd? rest with
      | some after => dropFiller fuel after
      | none =>
          match dropComment? rest with
          | some after =>
              match lineEnd? after with
              | some next => dropFiller fuel next
              | none => after
          | none => rest

/-- The characters after the end of an expression: spaces, perhaps a comment, and the end of the
line or of the text. -/
def lineTail? (chars : List Char) : Option (List Char) :=
  let rest := dropSpaces chars
  let rest := (dropComment? rest).getD rest
  match rest with
  | [] => some []
  | _ => lineEnd? rest

/-- Whether a character may stand in a key without quotes. -/
def isBareKeyChar (char : Char) : Bool :=
  char.isAlphanum || char == '_' || char == '-'

/-- Reads one segment of a key. -/
def readSegment? (chars : List Char) : Option (String × List Char) :=
  match Quoted.readLine? chars with
  | some found => some found
  | none =>
      let bare := chars.takeWhile isBareKeyChar
      if bare.isEmpty then none else some (String.ofList bare, chars.drop bare.length)

/-- Reads the segments of a key, with dots between them and spaces around the dots, after those in
`done`, which stand in reverse: the path, the last segment, and the characters after. -/
def readKeyOnto (done : List String) : Nat → List Char → Option (List String × String × List Char)
  | 0, _ => none
  | fuel + 1, chars =>
      (readSegment? chars).bind fun (segment, rest) =>
        match dropSpaces rest with
        | '.' :: after => readKeyOnto (segment :: done) fuel (dropSpaces after)
        | after => some (done.reverse, segment, after)

/-- Keys have fewer segments than this, and fewer arrays and inline tables stand inside one
another. -/
def maxNesting : Nat := 80

/-- Reads a key and the spaces after it. -/
def readKey? (chars : List Char) : Option (List String × String × List Char) :=
  (readKeyOnto [] (chars.length + 1) chars).filter fun (path, _) => path.length + 1 < maxNesting

/-- Reads a key with its equals sign and the spaces after it. -/
def readKeyEquals? (chars : List Char) : Option (List String × String × List Char) :=
  (readKey? chars).bind fun (path, key, rest) =>
    match rest with
    | '=' :: after => some (path, key, dropSpaces after)
    | _ => none

mutual

/-- Reads a value inside `depth` arrays and inline tables. -/
def readValue? (depth : Nat) : Nat → List Char → Option (Value × List Char)
  | 0, _ => none
  | fuel + 1, chars =>
      match chars with
      | '\x22' :: _ => (Quoted.read? chars).map fun (text, rest) => (.string text, rest)
      | '\x27' :: _ => (Quoted.read? chars).map fun (text, rest) => (.string text, rest)
      | '[' :: rest =>
          if depth + 1 < maxNesting then
            readItems? (depth + 1) [] fuel (dropFiller rest.length rest)
          else none
      | '\x7b' :: rest =>
          if depth + 1 < maxNesting then
            match dropSpaces rest with
            | '\x7d' :: after => some (.table [], after)
            | inner => readPairs? (depth + 1) ⟨.header, []⟩ fuel inner
          else none
      | 't' :: 'r' :: 'u' :: 'e' :: rest => some (.boolean true, rest)
      | 'f' :: 'a' :: 'l' :: 's' :: 'e' :: rest => some (.boolean false, rest)
      | _ => Scalar.read chars

/-- Reads the items of an array up to its closing bracket, after those in `done`, which stand in
reverse. -/
def readItems? (depth : Nat) (done : List Value) : Nat → List Char → Option (Value × List Char)
  | 0, _ => none
  | fuel + 1, chars =>
      match chars with
      | ']' :: rest => some (.array done.reverse, rest)
      | _ =>
          (readValue? depth fuel chars).bind fun (item, rest) =>
            match dropFiller rest.length rest with
            | ',' :: after => readItems? depth (item :: done) fuel (dropFiller after.length after)
            | ']' :: after => some (.array (item :: done).reverse, after)
            | _ => none

/-- Reads the pairs of a table on one line up to its closing brace, on top of those in `table`. -/
def readPairs? (depth : Nat) (table : OpenTable) : Nat → List Char → Option (Value × List Char)
  | 0, _ => none
  | fuel + 1, chars =>
      (readKeyEquals? chars).bind fun (path, key, rest) =>
        (readValue? depth fuel rest).bind fun (value, rest) =>
          (table.addPair path key value).toOption.bind fun table =>
            match dropSpaces rest with
            | ',' :: after => readPairs? depth table fuel (dropSpaces after)
            | '\x7d' :: after => some ((Node.table table.origin table.entries).close, after)
            | _ => none

end

/-- Reads a header with its brackets up to the end of the line. -/
def readHeader? (chars : List Char) : Option (Expression × List Char) :=
  match chars with
  | '[' :: '[' :: rest =>
      (readKey? (dropSpaces rest)).bind fun (path, key, rest) =>
        match rest with
        | ']' :: ']' :: after => (lineTail? after).map fun next => (.itemHeader path key, next)
        | _ => none
  | '[' :: rest =>
      (readKey? (dropSpaces rest)).bind fun (path, key, rest) =>
        match rest with
        | ']' :: after => (lineTail? after).map fun next => (.header path key, next)
        | _ => none
  | _ => none

/-- Reads a pair up to the end of the line. -/
def readPair? (chars : List Char) : Option (Expression × List Char) :=
  (readKeyEquals? chars).bind fun (path, key, rest) =>
    (readValue? 0 (2 * rest.length + 2) rest).bind fun (value, rest) =>
      (lineTail? rest).map fun next => (.pair path key value, next)

/-- Reads the line that characters begin with: what it says, if anything, and the next lines. -/
def readLine? (chars : List Char) : Option (Option Expression × List Char) :=
  match lineTail? chars with
  | some next => some (none, next)
  | none =>
      match dropSpaces chars with
      | '[' :: rest => (readHeader? ('[' :: rest)).map fun (line, next) => (some line, next)
      | start => (readPair? start).map fun (line, next) => (some line, next)

/-- Reads all lines, where `total` is the length of the whole document and `done` holds the
expressions read so far in reverse. -/
def readAll (document : List Char) (done : List Expression) :
    Nat → List Char → Outcome (List Expression)
  | 0, _ => .ok done.reverse
  | fuel + 1, chars =>
      if chars.isEmpty then .ok done.reverse
      else
        match readLine? chars with
        | some (line, next) => readAll document (line.toList ++ done) fuel next
        | none =>
            let before := document.take (document.length - chars.length)
            .error (.unreadable (before.count '\n' + 1))

end Expression

/-- A document under construction: its root table and the path of the table that pairs go to. -/
structure Draft where
  root : OpenTable
  current : List String

/-- The draft with one more expression. -/
def Draft.add (draft : Draft) : Expression → Outcome Draft
  | .pair path key value => do
      let root ← draft.root.descend .path (OpenTable.addPair path key value) draft.current
      return { draft with root }
  | .header path key => do
      let root ← draft.root.descend .path (OpenTable.openHeader key) path
      return ⟨root, path ++ [key]⟩
  | .itemHeader path key => do
      let root ← draft.root.descend .path (OpenTable.openItem key) path
      return ⟨root, path ++ [key]⟩

/-- The text without a byte order mark at its front. -/
def dropByteOrderMark : List Char → List Char
  | '\ufeff' :: rest => rest
  | chars => chars

/-- Reads a document. -/
def parse (text : String) : Outcome Value := do
  let chars := dropByteOrderMark text.toList
  let expressions ← Expression.readAll chars [] (chars.length + 1) chars
  let draft ← expressions.foldlM Draft.add ⟨⟨.header, []⟩, []⟩
  return (Node.table .header draft.root.entries).close

end ApiCoverage.Toml
