/-!
# Access flags

The flag word of a class or a method.
-/

namespace ApiCoverage.ClassFile

/-- Access and property flags. -/
structure Access where
  bits : UInt16
  deriving DecidableEq, Repr

namespace Access

/-- The flag of declarations that every class may use. -/
def publicFlag : UInt16 := 0x0001

/-- The flag of declarations for their own class alone. -/
def privateFlag : UInt16 := 0x0002

/-- The flag of declarations for subclasses and the package. -/
def protectedFlag : UInt16 := 0x0004

/-- The flag of interfaces, annotation types included. -/
def interfaceFlag : UInt16 := 0x0200

/-- The flag of declarations without an implementation. -/
def abstractFlag : UInt16 := 0x0400

/-- The flag of annotation types. -/
def annotationFlag : UInt16 := 0x2000

/-- The flags of an ordinary declaration. -/
def ofPublic : Access := ⟨publicFlag⟩

/-- Whether every bit of a flag is set. -/
def has (access : Access) (flag : UInt16) : Bool :=
  access.bits &&& flag == flag

def isPublic (access : Access) : Bool :=
  access.has publicFlag

def isInterface (access : Access) : Bool :=
  access.has interfaceFlag

def isAnnotationType (access : Access) : Bool :=
  access.has annotationFlag

end Access

end ApiCoverage.ClassFile
