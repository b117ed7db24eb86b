import ApiCoverage.Proofs.ClassFile.RoundTrip

/-!
# Drafts with names in either spelling

The names of classes are written with slashes, however a draft spells them. So a draft and its dotted
form are assembled into the same class file, and what is read back from the file of any draft is its
dotted form. The limits of the format concern this form only.
-/

namespace ApiCoverage.ClassFile

/-! ## The dotted form -/

/-- The annotation with the dotted form of its type's name. -/
def AnnotationUse.dotted (use : AnnotationUse) : AnnotationUse :=
  { use with typeName := Pool.dottedName use.typeName }

/-- The method with the dotted forms of its annotation types. -/
def MethodDraft.dotted (draft : MethodDraft) : MethodDraft :=
  { draft with
    annotations := draft.annotations.map AnnotationUse.dotted
    parameterAnnotations := draft.parameterAnnotations.map (List.map AnnotationUse.dotted) }

/-- The class with the dotted forms of its own name and those of the types that it names. -/
def ClassDraft.dotted (draft : ClassDraft) : ClassDraft :=
  { draft with
    name := Pool.dottedName draft.name
    superName := draft.superName.map Pool.dottedName
    interfaces := draft.interfaces.map Pool.dottedName
    annotations := draft.annotations.map AnnotationUse.dotted
    methods := draft.methods.map MethodDraft.dotted }

/-! ## Writing the dotted form -/

namespace Drafting

theorem classReference_dottedName (name : String) :
    classReference (Pool.dottedName name) = classReference name := by
  rw [classReference, classReference, Pool.dottedName, String.toList_ofList,
    Descriptor.slashed_dotted]

theorem annotationUse_dotted (use : AnnotationUse) :
    annotationUse use.dotted = annotationUse use := by
  have type_eq : Descriptor.encodeType (.object (Pool.dottedName use.typeName)) =
      Descriptor.encodeType (.object use.typeName) := by
    simp [Descriptor.encodeType, Pool.dottedName]
  rw [annotationUse, annotationUse, AnnotationUse.dotted, type_eq]

theorem annotations_map_dotted (uses : List AnnotationUse) :
    annotations (uses.map AnnotationUse.dotted) = annotations uses := by
  have uses_eq : annotationUse ∘ AnnotationUse.dotted = annotationUse :=
    funext annotationUse_dotted
  rw [annotations, annotations, List.mapM_map, uses_eq, List.length_map]

theorem annotationAttribute_map_dotted (uses : List AnnotationUse) :
    annotationAttribute (uses.map AnnotationUse.dotted) = annotationAttribute uses := by
  cases uses with
  | nil => rfl
  | cons use rest =>
      have body_eq := annotations_map_dotted (use :: rest)
      rw [List.map_cons] at body_eq ⊢
      simp only [annotationAttribute, body_eq]

end Drafting

namespace MethodDraft

theorem parameterAttribute_map_dotted (lists : List (List AnnotationUse)) :
    parameterAttribute (lists.map (List.map AnnotationUse.dotted)) = parameterAttribute lists := by
  cases lists with
  | nil => rfl
  | cons uses rest =>
      have pieces_eq : ((uses :: rest).map (List.map AnnotationUse.dotted)).mapM
          Drafting.annotations = (uses :: rest).mapM Drafting.annotations := by
        have lists_eq : Drafting.annotations ∘ List.map AnnotationUse.dotted =
            Drafting.annotations := funext Drafting.annotations_map_dotted
        rw [List.mapM_map, lists_eq]
      have length_eq := @List.length_map _ _ (uses :: rest) (List.map AnnotationUse.dotted)
      rw [List.map_cons] at pieces_eq length_eq ⊢
      simp only [parameterAttribute, pieces_eq, length_eq]

theorem encode_dotted (draft : MethodDraft) : draft.dotted.encode = draft.encode := by
  have attributes_eq : draft.dotted.attributes = draft.attributes := by
    rw [attributes, attributes, dotted, Drafting.annotationAttribute_map_dotted,
      parameterAttribute_map_dotted]
  rw [encode, encode, attributes_eq]
  rfl

end MethodDraft

namespace ClassDraft

theorem superclassSlot_map_dottedName (superName : Option String) :
    superclassSlot (superName.map Pool.dottedName) = superclassSlot superName := by
  cases superName with
  | none => rfl
  | some name => exact Drafting.classReference_dottedName name

theorem encodeBody_dotted (draft : ClassDraft) : draft.dotted.encodeBody = draft.encodeBody := by
  have attributes_eq : draft.dotted.attributes = draft.attributes := by
    rw [attributes, attributes, dotted, Drafting.annotationAttribute_map_dotted]
  have interfaces_eq : (Drafting.classReference ∘ Pool.dottedName) = Drafting.classReference :=
    funext Drafting.classReference_dottedName
  have methods_eq : (MethodDraft.encode ∘ MethodDraft.dotted) = MethodDraft.encode :=
    funext MethodDraft.encode_dotted
  rw [encodeBody, encodeBody, attributes_eq]
  simp only [dotted, Drafting.classReference_dottedName, superclassSlot_map_dottedName,
    List.mapM_map, interfaces_eq, methods_eq]

/-- A draft and its dotted form are the same class file. -/
theorem assemble_dotted (draft : ClassDraft) : draft.dotted.assemble = draft.assemble := by
  rw [assemble, assemble, encodeBody_dotted]
  rfl

theorem finalPool_dotted (draft : ClassDraft) : draft.dotted.finalPool = draft.finalPool := by
  rw [finalPool, finalPool, encodeBody_dotted]
  rfl

/-! ## Reading the dotted form -/

/-- What steps have drafted is linked in the pool that the class file is written with. -/
theorem ofSteps_linked {kind : TypeKind} {name : String} {steps : List ClassStep}
    (fits : (ofSteps kind name steps).dotted.Fits) :
    (ofSteps kind name steps).pool.Linked (ofSteps kind name steps).finalPool := by
  have pool := fits.pool
  rw [finalPool_dotted] at pool
  have empty : (ofKind kind name).pool.Linked (ofSteps kind name steps).finalPool := by
    intro constant member
    cases kind <;> cases member
  have grown := (ensures_encodeBody True fits pool (ofSteps kind name steps).pool).1
  rw [encodeBody_dotted] at grown
  exact (applyAll_linked pool (ofKind kind name) steps).2 grown empty

/-- The class file of steps that stay within the format, however they spell names, is read back as the
dotted form of the draft. -/
theorem exists_ofBytes_assemble_ofSteps {kind : TypeKind} {name : String} {steps : List ClassStep}
    (fits : (ofSteps kind name steps).dotted.Fits) :
    ∃ unit, ClassUnit.ofBytes (ofSteps kind name steps).assemble = .ok unit ∧
      (ofSteps kind name steps).dotted.StandsFor unit := by
  have linked : (ofSteps kind name steps).dotted.pool.Linked
      (ofSteps kind name steps).dotted.finalPool := by
    rw [finalPool_dotted]
    exact ofSteps_linked fits
  rcases exists_ofBytes_assemble fits linked with ⟨unit, opened, stands, _⟩
  rw [assemble_dotted] at opened
  exact ⟨unit, opened, stands⟩

end ClassDraft

end ApiCoverage.ClassFile
