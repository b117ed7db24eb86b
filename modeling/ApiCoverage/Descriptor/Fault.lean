/-!
# What can be wrong with a descriptor or a type name

Each cause carries what its message needs. Offsets count bytes of the UTF-8 form of the text.
-/

namespace ApiCoverage.Descriptor

/-- What a descriptor should have continued with. -/
inductive Expectation where
  | openingParenthesis
  | className
  | endOfDescriptor
  deriving DecidableEq, Repr

/-- The words for an expectation in a message. -/
def Expectation.words : Expectation → String
  | openingParenthesis => "'('"
  | className => "class name"
  | endOfDescriptor => "end of descriptor"

/-- Why a descriptor or a type name is refused. -/
inductive Fault where
  /-- The descriptor ends before its grammar does. -/
  | truncated (descriptor : String)
  /-- A character that is no type code stands where a type should start. -/
  | unknownCode (descriptor : String) (code : Char) (offset : Nat)
  /-- The descriptor does not continue as it must. -/
  | unexpected (descriptor : String) (expected : Expectation) (offset : Nat)
  /-- A parameter or an array element has type `void`. -/
  | misplacedVoid (descriptor : String)
  /-- A class name is unknown to the context of the descriptor. -/
  | unresolved (name : String)
  /-- A text is no type name of source code. -/
  | invalidTypeName (name : String)
  deriving DecidableEq, Repr

/-- The message for a refusal. -/
def Fault.message : Fault → String
  | truncated descriptor => s!"truncated descriptor `{descriptor}`"
  | unknownCode descriptor code offset =>
      s!"unknown type code '{code}' at offset {offset} in `{descriptor}`"
  | unexpected descriptor expected offset =>
      s!"expected {expected.words} at offset {offset} in `{descriptor}`"
  | misplacedVoid descriptor => s!"void used as a parameter or array element in `{descriptor}`"
  | unresolved name => s!"cannot resolve type `{name}`"
  | invalidTypeName name => s!"invalid type name `{name}`"

end ApiCoverage.Descriptor
