import ApiCoverage.Proofs.ClassFile.Drafting
import ApiCoverage.Proofs.ClassFile.ElementValue

/-!
# Sections of a class file read back as they were drafted

Annotations, method bodies and methods are each read back from the bytes that their drafting step
writes, in the pool that all steps together have built. The bytes of annotations have the size that
the limits of the format are stated with, and those of calls carry the slots of the methods called.
-/

namespace ApiCoverage.ClassFile

open Reader (reads_word)

/-- Joined pieces are as long as the sizes that they are known to have add up to. -/
theorem length_flatten_eq_sumBy {α : Type} {size : α → Nat} {members : List α} {pieces : List Bytes}
    (sizes : List.Forall₂ (fun member piece => piece.length = size member) members pieces) :
    pieces.flatten.length = sumBy size members := by
  induction sizes with
  | nil => rfl
  | cons head _ ih => rw [List.flatten_cons, List.length_append, head, ih, sumBy_cons]

theorem sumBy_const {α : Type} (amount : Nat) (list : List α) :
    sumBy (fun _ => amount) list = amount * list.length := by
  induction list with
  | nil => rfl
  | cons head rest ih => rw [sumBy_cons, ih, List.length_cons, Nat.mul_succ, Nat.add_comm]

variable {final : PoolDraft} {given : Prop}

/-! ## Annotations -/

namespace AnnotationUse

/-- The type of an annotation is written as a descriptor and read as a name. -/
theorem typeNameOf_encodeType (name : String) :
    typeNameOf (String.ofList (Descriptor.encodeType (.object name))) = Pool.dottedName name := by
  have part : classPart (Descriptor.encodeType (.object name)) =
      Descriptor.slashed name.toList := by
    simp [Descriptor.encodeType, classPart]
  rw [typeNameOf, String.toList_ofList, part, Descriptor.dotted_slashed, Pool.dottedName]

/-- An element of an annotation is read back by its name. -/
theorem ensures_element (fits : final.Fits) (name : String) :
    Drafting.Ensures final given (Drafting.element name)
      fun bytes => bytes.length = 5 ∧ (readElement final.toPool).Reads bytes name := by
  apply (Drafting.ensures_utf8 fits name).bind
  intro slot
  apply Drafting.ensures_pure
  rintro ⟨_, named⟩
  constructor
  · rfl
  · have text : 's' ∈ slotTags := by decide
    have leaf : (ElementValue.constant 's' text slot).depth < maxDepth + 1 := Nat.succ_pos maxDepth
    exact reads_element named leaf

/-- An annotation is read back with its members in order. -/
theorem ensures_annotationUse (fits : final.Fits) {use : AnnotationUse}
    (count : use.members.length ≤ 65535) (unslashed : '/' ∉ use.typeName.toList) :
    Drafting.Ensures final given (Drafting.annotationUse use)
      fun bytes => bytes.length = 4 + 5 * use.members.length ∧
        (read final.toPool).Reads bytes use := by
  apply (Drafting.ensures_utf8 fits _).bind
  intro type
  apply (Drafting.ensures_mapM _ fun name _ => ensures_element fits name).bind
  intro pieces
  apply Drafting.ensures_pure
  rintro ⟨⟨_, typed⟩, members⟩
  have size : pieces.flatten.length = 5 * use.members.length := by
    rw [length_flatten_eq_sumBy (members.imp fun _ _ => And.left), sumBy_const]
  refine ⟨by simp only [List.length_append, Bytes.length_ofUInt16, Drafting.count, size], ?_⟩
  have reads := reads_use typed (members.imp fun _ _ => And.right) count
  rw [typeNameOf_encodeType, Pool.dottedName_eq_self unslashed, ← List.append_assoc] at reads
  exact reads

/-- A counted list of annotations is read back in order. -/
theorem ensures_annotations (fits : final.Fits) {uses : List AnnotationUse}
    (listFits : ListFits uses) :
    Drafting.Ensures final given (Drafting.annotations uses)
      fun bytes => bytes.length = listSize uses ∧ (readList final.toPool).Reads bytes uses := by
  have members := Drafting.ensures_mapM given fun use member =>
    ensures_annotationUse fits (listFits.members use member) (listFits.unslashed use member)
  apply members.bind
  intro pieces
  apply Drafting.ensures_pure
  rintro ⟨_, members⟩
  constructor
  · rw [List.length_append, length_flatten_eq_sumBy (members.imp fun _ _ => And.left)]
    rfl
  · exact reads_uses (members.imp fun _ _ => And.right) listFits.count

end AnnotationUse

/-! ## Attributes -/

namespace Attribute

/-- A reader that reads the body of an attribute gives its value. -/
theorem parse_eq_ok {α : Type} {reader : Reader α} {name : String} {body : Bytes} {value : α}
    (reads : reader.Reads body value) (offset : Nat) :
    (⟨name, ⟨offset, body⟩⟩ : Attribute).parse reader = .ok value := by
  have run := reads offset []
  rw [List.append_nil] at run
  rw [parse, run]
  rfl

/-- The number of bytes of a counted list of attributes. -/
def listSize (entries : List (String × Bytes)) : Nat :=
  2 + sumBy (fun entry => 6 + entry.2.length) entries

/-- Bytes hold a counted list of attributes: reading them has the effect of every chain that the
list makes up. -/
structure ListHeld (pool : Pool) (entries : List (String × Bytes)) (bytes : Bytes) : Prop where
  size : bytes.length = listSize entries
  reads : ∀ {σ : Type} {act : σ → Attribute → Except Fault σ} {before after : σ} (part : Part),
    entries.length ≤ 65535 → Chain act entries before after →
      (Reader.word part >>= fun count => fold pool act count.toNat before).Reads bytes after

/-- A list of attributes is held by the bytes that it is written as. -/
theorem ensures_attributes (fits : final.Fits) (entries : List (String × Bytes)) :
    Drafting.Ensures final given (Drafting.attributes entries)
      (ListHeld final.toPool entries) := by
  have written : Drafting.Ensures final given
      (entries.mapM fun entry => do
        let index ← Drafting.utf8 entry.1
        return Bytes.ofUInt16 index ++ Bytes.ofUInt32 (UInt32.ofNat entry.2.length) ++ entry.2)
      (List.Forall₂ (Written final.toPool) entries) := by
    apply Drafting.ensures_mapM
    intro entry _
    apply (Drafting.ensures_utf8 fits entry.1).bind
    intro slot
    exact Drafting.ensures_pure fun known => ⟨slot, known.2, rfl⟩
  apply written.bind
  intro pieces
  apply Drafting.ensures_pure
  rintro ⟨_, written⟩
  constructor
  · have sizes : List.Forall₂
        (fun (entry : String × Bytes) (piece : Bytes) => piece.length = 6 + entry.2.length)
        entries pieces := by
      apply written.imp
      rintro entry _ ⟨slot, _, rfl⟩
      simp [encode, ← Nat.add_assoc]
    rw [List.length_append, length_flatten_eq_sumBy sizes]
    rfl
  · intro _ _ _ _ _ count chain
    apply (reads_word _ _).bind
    rw [toNat_ofNat_of_le count]
    exact reads_fold chain written

end Attribute

end ApiCoverage.ClassFile
