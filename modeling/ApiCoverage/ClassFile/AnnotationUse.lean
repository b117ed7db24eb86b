import ApiCoverage.ClassFile.Pool

/-!
# Annotations

An annotation is read as its type and the names of the elements that it sets, in file order with
repetitions. The values are skipped: constants, enumeration constants, nested annotations and
arrays of values, up to a fixed nesting depth.
-/

namespace ApiCoverage.ClassFile

/-- An annotation with the names of the elements that it sets. -/
structure AnnotationUse where
  /-- The dotted name of the annotation type. -/
  typeName : String
  members : List String
  deriving DecidableEq, Repr

namespace AnnotationUse

/-- Whether the annotation sets an element. -/
def sets (use : AnnotationUse) (member : String) : Bool :=
  use.members.contains member

/-- Whether the annotation marks its target as deprecated. -/
def isDeprecation (use : AnnotationUse) : Bool :=
  use.typeName == "java.lang.Deprecated"

/-- The characters of a class type descriptor between `L` and `;`; any other text stays whole. -/
def classPart (chars : List Char) : List Char :=
  match chars with
  | 'L' :: rest =>
      match rest.reverse with
      | ';' :: name => name.reverse
      | _ => chars
  | _ => chars

/-- The dotted type name in an annotation's type descriptor. -/
def typeNameOf (descriptor : String) : String :=
  String.ofList (Descriptor.dotted (classPart descriptor.toList))

/-- How deep element values may nest. -/
def maxDepth : Nat := 32

/-- Skips one element value, with `levels` more levels of nesting to go; at zero the value stands
too deep. -/
def skipValue : Nat → Reader Unit
  | 0 => do
      let offset ← Reader.position
      Reader.fail (.malformed .annotationNesting offset)
  | levels + 1 => do
      let offset ← Reader.position
      let tag ← Reader.byte .elementValue
      match Char.ofNat tag.toNat with
      | 'B' | 'C' | 'D' | 'F' | 'I' | 'J' | 'S' | 'Z' | 's' | 'c' =>
          let _ ← Reader.take .elementValue 2
      | 'e' =>
          let _ ← Reader.take .elementValue 4
      | '@' =>
          let _ ← Reader.take .innerAnnotations 2
          let count ← Reader.word .innerAnnotations
          let _ ← Reader.times count.toNat do
            let _ ← Reader.take .innerAnnotations 2
            skipValue levels
      | '[' =>
          let count ← Reader.word .elementArray
          let _ ← Reader.times count.toNat (skipValue levels)
      | _ => Reader.fail (.malformed .elementValueTag offset)

/-- Reads one element and gives its name. -/
def readElement (pool : Pool) : Reader String := do
  let name ← Reader.ofExcept (pool.utf8 (← Reader.word .annotationElement))
  skipValue (maxDepth + 1)
  return name

/-- Reads one annotation. -/
def read (pool : Pool) : Reader AnnotationUse := do
  let descriptor ← Reader.ofExcept (pool.utf8 (← Reader.word .annotationHeader))
  let count ← Reader.word .annotationHeader
  let members ← Reader.times count.toNat (readElement pool)
  return ⟨typeNameOf descriptor, members⟩

/-- Reads a counted list of annotations. -/
def readList (pool : Pool) : Reader (List AnnotationUse) := do
  let count ← Reader.word .annotations
  Reader.times count.toNat (read pool)

end AnnotationUse

end ApiCoverage.ClassFile
