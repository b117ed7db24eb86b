import ApiCoverage.Bytes
import ApiCoverage.Files.Path

/-!
# File trees

The files that a run can see: a tree of folders, files and symbolic links, with a working folder
for relative paths. Looking up a path follows links on the way, and the last component too unless
the link itself is asked for. A path that ends in a separator or in `.` must lead to a folder.

Folders list their members in the order of their names, so walking a tree visits every folder
before its members and the members by name. A walk does not follow links, except for its root. It
goes by paths, so it meets the members of a folder only if the path of the folder can be used.
-/

namespace ApiCoverage

/-- A file, a folder, or a symbolic link. -/
inductive FileEntry where
  | file (content : Bytes)
  | link (target : Path)
  | folder (members : List (String × FileEntry))

/-- Why a path cannot be used. -/
inductive FileFault where
  | notFound
  | notFolder
  | isFolder
  | tooManyLinks
  | nameTooLong
  | nulInName
  /-- A text file does not hold UTF-8. -/
  | notText
  deriving DecidableEq, Repr

/-- The message for a fault. -/
def FileFault.message : FileFault → String
  | notFound => "No such file or directory (os error 2)"
  | notFolder => "Not a directory (os error 20)"
  | isFolder => "Is a directory (os error 21)"
  | tooManyLinks => "Too many levels of symbolic links (os error 40)"
  | nameTooLong => "File name too long (os error 36)"
  | nulInName => "file name contained an unexpected NUL byte"
  | notText => "stream did not contain valid UTF-8"

namespace FileEntry

/-- The folder without members. -/
def emptyFolder : FileEntry :=
  folder []

def isFolder : FileEntry → Bool
  | folder _ => true
  | _ => false

def isFile : FileEntry → Bool
  | file _ => true
  | _ => false

/-- A member of a folder. -/
def member? (entry : FileEntry) (name : String) : Option FileEntry :=
  match entry with
  | folder members => members.lookup name
  | _ => none

/-- The entry that a sequence of member names leads to. -/
def at? (entry : FileEntry) : List String → Option FileEntry
  | [] => some entry
  | name :: rest => (entry.member? name).bind fun child => child.at? rest

/-- The members with one of them set, in the order of names. -/
def setMember (name : String) (entry : FileEntry) :
    List (String × FileEntry) → List (String × FileEntry)
  | [] => [(name, entry)]
  | (other, old) :: rest =>
      if name = other then (name, entry) :: rest
      else if name < other then (name, entry) :: (other, old) :: rest
      else (other, old) :: setMember name entry rest

/-- The entry with what a sequence of member names leads to replaced; a missing member is added. -/
def replaceAt : FileEntry → List String → FileEntry → FileEntry
  | _, [], new => new
  | folder members, name :: rest, new =>
      let child := (members.lookup name).getD emptyFolder
      folder (setMember name (child.replaceAt rest new) members)
  | entry, _ :: _, _ => entry

end FileEntry

/-- A file tree and the place in it where relative paths start. -/
structure FileTree where
  root : FileEntry
  workingFolder : List String

/-- Where a path leads: member names from the root, and what stands there. -/
structure Location where
  place : List String
  entry : Option FileEntry

namespace FileTree

/-- The number of links that a lookup follows. -/
def maxLinks : Nat := 40

/-- The length in bytes that names keep within. -/
def maxName : Nat := 255

/-- Follows path segments from a place, whose names stand in reverse, with a number of links left
to follow. The last segment may name what does not exist yet. -/
def follow (root : FileEntry) (followLast : Bool) :
    Nat → List String → List String → Except FileFault Location
  | _, place, [] => .ok ⟨place.reverse, root.at? place.reverse⟩
  | links, place, segment :: rest =>
      match root.at? place.reverse with
      | some (.folder members) =>
          if segment.isEmpty || segment == "." then follow root followLast links place rest
          else if segment == ".." then follow root followLast links place.tail rest
          else if segment.utf8ByteSize > maxName then .error .nameTooLong
          else
            match members.lookup segment with
            | none =>
                if rest.isEmpty then .ok ⟨(segment :: place).reverse, none⟩ else .error .notFound
            | some (.link target) =>
                if rest.isEmpty && !followLast then
                  .ok ⟨(segment :: place).reverse, some (.link target)⟩
                else
                  match links with
                  | 0 => .error .tooManyLinks
                  | links + 1 =>
                      let start := if Path.isAbsolute target then [] else place
                      follow root followLast links start (Path.segments target ++ rest)
            | some _ => follow root followLast links (segment :: place) rest
      | some _ => .error .notFolder
      | none => .error .notFound
  termination_by links _ segments => (links, segments.length)

/-- Where a path leads. -/
def locate (tree : FileTree) (followLast : Bool) (path : Path) : Except FileFault Location :=
  if path.isEmpty then .error .notFound
  else if path.toList.contains '\x00' then .error .nulInName
  else if Path.isTooLong path then .error .nameTooLong
  else
    let start := if Path.isAbsolute path then [] else tree.workingFolder.reverse
    follow tree.root followLast maxLinks start (Path.segments path)

/-- What stands at a path after following links. -/
def stat (tree : FileTree) (path : Path) : Except FileFault FileEntry := do
  let location ← tree.locate true path
  match location.entry with
  | some entry => return entry
  | none => .error .notFound

/-- What stands at a path, be it a link. -/
def statLink (tree : FileTree) (path : Path) : Except FileFault FileEntry := do
  let location ← tree.locate false path
  match location.entry with
  | some entry => return entry
  | none => .error .notFound

/-- Whether a path leads to a file. -/
def isFile (tree : FileTree) (path : Path) : Bool :=
  (tree.stat path).toOption.any FileEntry.isFile

/-- Whether a path leads to a folder. -/
def isFolder (tree : FileTree) (path : Path) : Bool :=
  (tree.stat path).toOption.any FileEntry.isFolder

/-- The content of the file that a path leads to. -/
def read (tree : FileTree) (path : Path) : Except FileFault Bytes := do
  match ← tree.stat path with
  | .file content => return content
  | _ => .error .isFolder

/-- The content of the text file that a path leads to. -/
def readText (tree : FileTree) (path : Path) : Except FileFault String := do
  let content ← tree.read path
  match String.fromUTF8? ⟨content.toArray⟩ with
  | some text => return text
  | none => .error .notText

/-- The tree with a file written, which replaces the one that the path leads to. -/
def write (tree : FileTree) (path : Path) (content : Bytes) : Except FileFault FileTree := do
  let location ← tree.locate true path
  match location.entry with
  | some (.folder _) => .error .isFolder
  | _ => return { tree with root := tree.root.replaceAt location.place (.file content) }

/-- The tree with a folder, and the folders on the way to it, where they are missing. -/
def makeFolder (tree : FileTree) (path : Path) : FileTree :=
  let segments := Path.segments path
  let fronts := (List.range segments.length).map fun count =>
    "/".intercalate (segments.take (count + 1))
  fronts.foldl (fun tree front =>
    match tree.locate true front with
    | .ok ⟨place, none⟩ => { tree with root := tree.root.replaceAt place .emptyFolder }
    | _ => tree) tree

/-- The tree with an entry at a path, and with the folders on the way to it. A file at the place of
a link is written through the link. -/
def add (tree : FileTree) (path : Path) (entry : FileEntry) : FileTree :=
  let tree := tree.makeFolder ((Path.parent? path).getD "")
  match tree.locate entry.isFile path with
  | .ok location => { tree with root := tree.root.replaceAt location.place entry }
  | .error _ => tree

end FileTree

/-- A step of a walk through a file tree. -/
inductive Visit where
  /-- An entry stands at a path. -/
  | met (path : Path) (entry : FileEntry)
  /-- The members of the folder at a path cannot be listed. -/
  | unlisted (path : Path) (fault : FileFault)

namespace Visit

/-- The path that a step is about. -/
def path : Visit → Path
  | met path _ => path
  | unlisted path _ => path

end Visit

mutual

/-- The visits of an entry and of everything below it. -/
def FileEntry.walk (path : Path) : FileEntry → List Visit
  | .folder members =>
      .met path (.folder members) ::
        if Path.isTooLong path then [.unlisted path .nameTooLong] else walkMembers path members
  | .file content => [.met path (.file content)]
  | .link target => [.met path (.link target)]

/-- The visits of the members of a folder. -/
def walkMembers (path : Path) : List (String × FileEntry) → List Visit
  | [] => []
  | (name, entry) :: rest =>
      FileEntry.walk (Path.join path name) entry ++ walkMembers path rest

end

/-- The visits of a walk from a path. A root that is a link is visited as a link, and the folder
that it leads to is walked all the same. -/
def FileTree.walk (tree : FileTree) (path : Path) : Except FileFault (List Visit) := do
  match ← tree.statLink path with
  | .link target =>
      match ← tree.stat path with
      | .folder members => return .met path (.link target) :: walkMembers path members
      | _ => return [.met path (.link target)]
  | entry => return entry.walk path

end ApiCoverage
