import ApiCoverage.ClassFile.Fault
import ApiCoverage.Descriptor.Fault
import ApiCoverage.Files.Tree
import ApiCoverage.Toml.Value

/-!
# Why a scan cannot be carried out

A scan fails on what the user has to mend: the choice of files and surfaces, a project or
declaration file, a declared descriptor, or a surface class file that cannot be used. Class files
among the scanned ones never make a scan fail.
-/

namespace ApiCoverage

/-- What is wrong with the choice of files and surfaces. -/
inductive ConfigurationFault where
  | noScanRoot
  | unknownSurface (name : String)
  /-- The class file at the place of one class declares another. -/
  | misnamedUnit (path : Path) (expected declared : String)
  | classpathNotFolder (path : Path)
  | rootUnreachable (path : Path) (fault : FileFault)
  | rootNotFolder (path : Path)
  deriving DecidableEq, Repr

namespace ConfigurationFault

/-- The words for a fault. -/
def words : ConfigurationFault → String
  | noScanRoot => "no scan root given"
  | unknownSurface name =>
      s!"unknown surface '{name}': not declared and not found on the classpath"
  | misnamedUnit _ expected declared =>
      s!"expected '{expected}' but the class file declares '{declared}'"
  | classpathNotFolder _ => "classpath entry is not a directory"
  | rootUnreachable _ fault => s!"cannot access scan root: {fault.message}"
  | rootNotFolder _ => "scan root is not a directory"

/-- The path that a fault is about. -/
def path? : ConfigurationFault → Option Path
  | noScanRoot => none
  | unknownSurface _ => none
  | misnamedUnit path _ _ => some path
  | classpathNotFolder path => some path
  | rootUnreachable path _ => some path
  | rootNotFolder path => some path

end ConfigurationFault

/-- What is wrong with a project file or a declaration file. -/
inductive ManifestFault where
  | projectUnreadable (fault : FileFault)
  | declarationsUnreadable (fault : FileFault)
  /-- The file is not the TOML document that it should be. -/
  | malformed (fault : Toml.Fault)
  | blankProjectSurface
  | surfaceTwice (name : String)
  | blankSurface
  /-- A method gives its types in both ways. -/
  | typesTwice (surface method : String)
  deriving DecidableEq, Repr

/-- The name that project files go by. -/
def projectFileName : String := "apicov.toml"

/-- The words for a fault. -/
def ManifestFault.words : ManifestFault → String
  | projectUnreadable fault => s!"{projectFileName}: could not read file: {fault.message}"
  | declarationsUnreadable fault => s!"could not read declarations: {fault.message}"
  | malformed fault => fault.message
  | blankProjectSurface => s!"{projectFileName}: surface names must not be empty"
  | surfaceTwice name => s!"surface '{name}' is declared twice"
  | blankSurface => "surface name must not be empty"
  | typesTwice surface method =>
      s!"{surface}.{method}: give either 'descriptor' or 'params'/'returns', not both"

/-- Why a scan cannot be carried out. -/
inductive Failure where
  | configuration (fault : ConfigurationFault)
  | manifest (path : Path) (fault : ManifestFault)
  /-- A method of a surface has a descriptor that cannot be read. -/
  | descriptor (surface method : String) (fault : Descriptor.Fault)
  /-- A class file that is needed cannot be read. -/
  | unit (path : Path) (fault : ClassFile.Fault)
  /-- A file that is needed cannot be used. -/
  | file (path : Path) (fault : FileFault)
  deriving DecidableEq, Repr

/-- The message for a failure. -/
def Failure.message : Failure → String
  | configuration fault => s!"Configuration error: {fault.words}"
  | manifest _ fault => s!"Manifest error: {fault.words}"
  | descriptor surface method fault =>
      s!"Malformed descriptor for {surface}.{method}: {fault.message}"
  | unit path fault => s!"Corrupt class file {path}: {fault.message}"
  | file path fault => s!"I/O error on {path}: {fault.message}"

end ApiCoverage
