import ApiCoverage.ClassFile.Unit
import ApiCoverage.Ordered.Set
import ApiCoverage.Text.Listing

/-!
# Which methods are not tracked

A policy gives, for a method of a type, the reason why it is left out of the coverage, if there is
one. The base policy leaves out methods that are not public or are deprecated and, on request, the
overrides that every class has from `java.lang.Object`. An exclusion list adds single methods, each
named on a line of its own as `type@name@descriptor`; the base policy is asked first.
-/

namespace ApiCoverage

open ClassFile (MethodDecl)

/-- Why a method is left out. -/
inductive ExclusionReason where
  | notPublic
  | deprecated
  | objectMethod
  | listed
  deriving DecidableEq, Repr

/-- The words for a reason. -/
def ExclusionReason.words : ExclusionReason → String
  | notPublic => "not public"
  | deprecated => "deprecated"
  | objectMethod => "java.lang.Object method"
  | listed => "listed in exclusions file"

/-- The reason why a method of a type is left out, or `none` if it is tracked. -/
abbrev ExclusionPolicy := String → MethodDecl → Option ExclusionReason

/-- The names and descriptors of the overridable methods that say nothing about the use of a
type. -/
def objectMethods : List (String × String) :=
  [("equals", "(Ljava/lang/Object;)Z"), ("hashCode", "()I"), ("toString", "()Ljava/lang/String;")]

/-- The base policy, which leaves out the methods of `java.lang.Object` when asked to. -/
def baseExclusion (dropObjectMethods : Bool) : ExclusionPolicy := fun _ method =>
  if !method.access.isPublic then some .notPublic
  else if method.deprecated then some .deprecated
  else if dropObjectMethods && objectMethods.contains (method.name, method.descriptor) then
    some .objectMethod
  else none

/-- The base policy with a list of single methods. -/
structure ExclusionList where
  dropObjectMethods : Bool
  /-- The listed methods, as they stand in the file. -/
  listed : OrderedSet String

namespace ExclusionList

/-- The exclusion list in a file. -/
def ofText (dropObjectMethods : Bool) (text : String) : ExclusionList :=
  ⟨dropObjectMethods, OrderedSet.ofList (Text.entries text)⟩

/-- How a list names a method of a type. -/
def entryFor (type : String) (method : MethodDecl) : String :=
  s!"{type}@{method.name}@{method.descriptor}"

/-- The policy of an exclusion list. -/
def policy (list : ExclusionList) : ExclusionPolicy := fun type method =>
  match baseExclusion list.dropObjectMethods type method with
  | some reason => some reason
  | none => if list.listed.contains (entryFor type method) then some .listed else none

end ExclusionList

end ApiCoverage
