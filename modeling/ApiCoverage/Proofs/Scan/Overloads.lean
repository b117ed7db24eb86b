import ApiCoverage.Proofs.Descriptor.Named
import ApiCoverage.Proofs.Scan.Usage

/-!
# Call sites in overloaded methods

A call site names the method that holds it by the display form of the method, which leaves out the return
type. Where the types of the methods have names, overloads are nevertheless told apart by their call sites,
because the parameters are recovered from the display form; two methods that differ in nothing but their
return type are not.
-/

namespace ApiCoverage

open ClassFile (MethodDecl)
open Descriptor (display displayParams encode)

/-- A method whose descriptor was written is shown with its parameters. -/
theorem ClassFile.MethodDecl.signature_eq {method : MethodDecl} {signature : Signature}
    (describable : signature.Describable) (written : method.descriptor = encode signature) :
    method.signature = s!"{method.name}({displayParams signature.params})" := by
  rw [MethodDecl.signature, written, Descriptor.display_encode describable]

/-- All places where a method uses something show the method in the same form. -/
theorem Usage.site_method_eq {tracked : TrackedSurfaces} {index : SymbolIndex} {unit : String}
    {method : MethodDecl} {usage : Usage} (used : usage ∈ ofMethod tracked index unit method) :
    usage.site.method = method.signature := by
  obtain ⟨target, site⟩ := usage
  obtain ⟨body, _, called | ⟨rfl, _⟩ | ⟨rfl, _⟩⟩ := mem_ofMethod_iff.1 used
  · obtain ⟨instruction, _, slot, _, _, rfl⟩ := mem_ofCode_iff.1 called
    rfl
  · rfl
  · rfl

/-- Methods of one name whose types have names are shown in the same form exactly when they have the same
parameters, whatever they return. So the call sites of two methods of a class name the same method exactly
in this case. -/
theorem sites_tell_overloads_apart {first second : Signature} (named : first.Named)
    (otherNamed : second.Named) (name : String) :
    (∃ text, display name (encode first) = .ok text) ∧
      (display name (encode first) = display name (encode second) ↔ first.params = second.params) ∧
      ∀ (tracked : TrackedSurfaces) (index : SymbolIndex) (unit : String)
        (method overload : MethodDecl), method.name = name → overload.name = name →
        method.descriptor = encode first → overload.descriptor = encode second →
        ∀ usage ∈ Usage.ofMethod tracked index unit method,
          ∀ other ∈ Usage.ofMethod tracked index unit overload,
            (usage.site.method = other.site.method ↔ first.params = second.params) := by
  refine ⟨⟨_, Descriptor.display_encode named.describable name⟩,
    Descriptor.display_encode_inj named otherNamed name, ?_⟩
  intro tracked index unit method overload sameName otherName written otherWritten usage used other otherUsed
  rw [Usage.site_method_eq used, Usage.site_method_eq otherUsed,
    MethodDecl.signature_eq named.describable written,
    MethodDecl.signature_eq otherNamed.describable otherWritten, sameName, otherName, Descriptor.shown_inj,
    Descriptor.displayParams_inj named.isNameable otherNamed.isNameable]

/-- Takes an array and a class. -/
def arrayFirst : Signature :=
  ⟨.void, [.array (.primitive .int), .object "a.B"]⟩

/-- Takes the same with the array layer on the other parameter. -/
def arraySecond : Signature :=
  ⟨.primitive .long, [.primitive .int, .array (.object "a.B")]⟩

theorem sites_tell_overloads_apart_arrays :
    arrayFirst.Named ∧ arraySecond.Named ∧
      display "put" (encode arrayFirst) ≠ display "put" (encode arraySecond) ∧
      display "put" (encode arrayFirst) =
        display "put" (encode { arrayFirst with returns := .object "a.B" }) := by
  have named : arrayFirst.Named := by
    refine ⟨⟨"void", by decide +kernel⟩, ?_⟩
    simp only [arrayFirst, List.forall_mem_cons]
    exact ⟨⟨by decide, "int[]", by decide +kernel⟩, ⟨by decide, "a.B", by decide +kernel⟩,
      List.forall_mem_nil _⟩
  have otherNamed : arraySecond.Named := by
    refine ⟨⟨"long", by decide +kernel⟩, ?_⟩
    simp only [arraySecond, List.forall_mem_cons]
    exact ⟨⟨by decide, "int", by decide +kernel⟩, ⟨by decide, "a.B[]", by decide +kernel⟩,
      List.forall_mem_nil _⟩
  have returning : Signature.Named { arrayFirst with returns := .object "a.B" } :=
    ⟨⟨"a.B", by decide +kernel⟩, named.params⟩
  refine ⟨named, otherNamed, ?_, (sites_tell_overloads_apart named returning "put").2.1.2 rfl⟩
  intro same
  have params := (sites_tell_overloads_apart named otherNamed "put").2.1.1 same
  exact absurd params (by decide)

end ApiCoverage
