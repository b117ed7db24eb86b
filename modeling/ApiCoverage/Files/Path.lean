/-!
# Path texts

Paths are kept as they are written: joining adds one separator where it is needed and nothing is
normalised. A segment that is empty or `.` means nothing in a path, except that a relative path may
begin with `.`. As nothing is normalised, such segments count towards the length of a path, and a
path that is too long leads nowhere.
-/

namespace ApiCoverage

/-- A path as it is written. -/
abbrev Path := String

namespace Path

/-- The length in bytes that usable paths stay below. -/
def lengthBound : Nat := 4096

/-- Whether a path is too long to be used. -/
def isTooLong (path : Path) : Bool :=
  path.utf8ByteSize ≥ lengthBound

/-- Whether a path starts at the root of the file tree. -/
def isAbsolute (path : Path) : Bool :=
  path.toList.head? == some '/'

/-- A path below another. An absolute path stays as it is, and nothing is added to an empty one. -/
def join (base path : Path) : Path :=
  if isAbsolute path || base.isEmpty then path
  else if base.toList.getLast? == some '/' then base ++ path
  else base ++ "/" ++ path

/-- The texts between the separators of a path. -/
def segments (path : Path) : List String :=
  (path.toList.splitOn '/').map String.ofList

/-- Drops the segments that mean nothing off the end of a path, whose segments stand in
reverse. -/
def dropIdle : List String → List String
  | [] => []
  | [first] => if first.isEmpty then [] else [first]
  | last :: rest => if last.isEmpty || last == "." then dropIdle rest else last :: rest

/-- The path without its last component, as far as it has one. -/
def parent? (path : Path) : Option Path :=
  match dropIdle (segments path).reverse with
  | [] => none
  | _ :: rest =>
      match dropIdle rest with
      | [] => some (if isAbsolute path then "/" else "")
      | kept => some ("/".intercalate kept.reverse)

/-- The last component of a path, if it is a name. -/
def fileName? (path : Path) : Option String :=
  match dropIdle (segments path).reverse with
  | [] => none
  | last :: _ => if last == "." || last == ".." then none else some last

/-- The part of a file name after its last dot; a dot at the very front opens no extension. -/
def extension? (path : Path) : Option String :=
  match fileName? path with
  | none => none
  | some name =>
      let reversed := name.toList.reverse
      match reversed.dropWhile (· != '.') with
      | _ :: _ :: _ => some (String.ofList (reversed.takeWhile (· != '.')).reverse)
      | _ => none

end Path

end ApiCoverage
