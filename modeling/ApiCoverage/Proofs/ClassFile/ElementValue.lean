import ApiCoverage.Proofs.ClassFile.Composition
import Mathlib.Data.Fin.VecNotation
import Mathlib.Data.Finset.Lattice.Fold
import Mathlib.Data.Fintype.Basic
import Mathlib.Data.List.OfFn
import Mathlib.Tactic.FinCases

/-!
# The values of annotation elements

Element values are trees: constants and enumeration constants are leaves, annotations and arrays
contain further values. Every container states its number of values in two bytes, so the trees carry
their counts as words. A reader with enough levels to go skips exactly the bytes of a value, and one
with too few refuses it at the first value that stands too deep. A list of annotations is therefore
read with the names of its own elements, whatever their values contain.
-/

namespace ApiCoverage.ClassFile

namespace Reader

variable {α β : Type} {part : Part}

/-- `reader` refuses `bytes` as malformed, at the same one of them wherever they stand and whatever
follows them. -/
def Refuses (reader : Reader α) (part : Part) (bytes : Bytes) : Prop :=
  ∃ distance < bytes.length, ∀ offset rest,
    reader ⟨offset, bytes ++ rest⟩ = .error (.malformed part (offset + distance))

/-- What a step refuses is refused with all that comes behind it. -/
theorem Refuses.bind {reader : Reader α} {bytes : Bytes} (refuses : reader.Refuses part bytes)
    (next : α → Reader β) (behind : Bytes) :
    (reader >>= next).Refuses part (bytes ++ behind) := by
  rcases refuses with ⟨distance, inside, refused⟩
  refine ⟨distance, ?_, fun offset rest => ?_⟩
  · rw [List.length_append]
    exact Nat.lt_add_right _ inside
  · rw [List.append_assoc, bind_apply, refused]

/-- A last step that only computes adds nothing to what is refused. -/
theorem Refuses.bind_pure {reader : Reader α} {bytes : Bytes} (refuses : reader.Refuses part bytes)
    (next : α → β) : (reader >>= fun value => pure (next value)).Refuses part bytes :=
  List.append_nil bytes ▸ refuses.bind (fun value => pure (next value)) []

/-- A step leaves what is refused to the step after it. -/
theorem Reads.bind_refuses {reader : Reader α} {next : α → Reader β} {first second : Bytes}
    {value : α} (before : reader.Reads first value) (refuses : (next value).Refuses part second) :
    (reader >>= next).Refuses part (first ++ second) := by
  rcases refuses with ⟨distance, inside, refused⟩
  refine ⟨first.length + distance, ?_, fun offset rest => ?_⟩
  · rw [List.length_append]
    exact Nat.add_lt_add_left inside _
  · rw [List.append_assoc, before.bind_apply, refused, Nat.add_assoc]

/-- Behind a tag, the reader that the tag selects decides. -/
theorem refuses_tagged {body : Nat → UInt8 → Reader α} {reader : Reader α} {tagPart : Part}
    {tag : UInt8} {bytes : Bytes} (selects : ∀ offset, body offset tag = reader)
    (refuses : reader.Refuses part bytes) :
    (position >>= fun offset => byte tagPart >>= body offset).Refuses part (tag :: bytes) := by
  rcases refuses with ⟨distance, inside, refused⟩
  refine ⟨distance + 1, Nat.succ_lt_succ inside, fun offset rest => ?_⟩
  have step := (reads_byte tagPart tag).bind_apply (body offset) offset (bytes ++ rest)
  rw [position_bind]
  rw [selects, refused, List.length_singleton, Nat.add_right_comm, Nat.add_assoc] at step
  exact step

theorem timesOnto_refuses {reader : Reader α} {pieces : List Bytes}
    (known : ∀ piece ∈ pieces, (∃ value, reader.Reads piece value) ∨ reader.Refuses part piece)
    (refused : ∃ piece ∈ pieces, reader.Refuses part piece) (done : List α) :
    (timesOnto reader done pieces.length).Refuses part pieces.flatten := by
  induction pieces generalizing done with
  | nil => simp at refused
  | cons piece pieces ih =>
      rw [List.forall_mem_cons] at known
      rw [List.exists_mem_cons_iff] at refused
      rw [List.length_cons, timesOnto_succ, List.flatten_cons]
      rcases refused with first | later
      · exact first.bind _ _
      · rcases known.1 with ⟨value, reads⟩ | first
        · exact reads.bind_refuses (ih known.2 later _)
        · exact first.bind _ _

/-- A repetition reads the joined pieces of members that are given by their number. -/
theorem reads_times_ofFn {reader : Reader α} {count : Nat} {values : Fin count → α}
    {pieces : Fin count → Bytes} (members : ∀ i, reader.Reads (pieces i) (values i)) :
    (times count reader).Reads (List.ofFn pieces).flatten (List.ofFn values) := by
  apply reads_times _ List.length_ofFn.symm
  rw [List.forall₂_iff_get]
  simp [members]

/-- A repetition refuses its first member that is refused. -/
theorem times_refuses_ofFn {reader : Reader α} {count : Nat} {pieces : Fin count → Bytes}
    (known : ∀ i, (∃ value, reader.Reads (pieces i) value) ∨ reader.Refuses part (pieces i))
    (refused : ∃ i, reader.Refuses part (pieces i)) :
    (times count reader).Refuses part (List.ofFn pieces).flatten := by
  have members : ∃ piece ∈ List.ofFn pieces, reader.Refuses part piece := by
    rcases refused with ⟨i, refuses⟩
    exact ⟨pieces i, List.mem_ofFn.2 ⟨i, rfl⟩, refuses⟩
  have all := timesOnto_refuses (List.forall_mem_ofFn_iff.2 known) members []
  rwa [List.length_ofFn] at all

end Reader

namespace AnnotationUse

/-- The tags of values that are given by a single slot: constants, texts and classes. -/
def slotTags : List Char :=
  ['B', 'C', 'D', 'F', 'I', 'J', 'S', 'Z', 's', 'c']

/-- The value of an element, by the slots that its parts stand in. -/
inductive ElementValue where
  | constant (tag : Char) (known : tag ∈ slotTags) (slot : UInt16)
  | enumeration (type name : UInt16)
  | annotation (type count : UInt16) (names : Fin count.toNat → UInt16)
      (values : Fin count.toNat → ElementValue)
  | array (count : UInt16) (values : Fin count.toNat → ElementValue)

namespace ElementValue

/-- The byte of a tag. -/
def tagByte (tag : Char) : UInt8 :=
  UInt8.ofNat tag.toNat

/-- The bytes of a value. -/
def encode : ElementValue → Bytes
  | constant tag _ slot => tagByte tag :: Bytes.ofUInt16 slot
  | enumeration type name => tagByte 'e' :: (Bytes.ofUInt16 type ++ Bytes.ofUInt16 name)
  | annotation type count names values =>
      tagByte '@' :: (Bytes.ofUInt16 type ++ (Bytes.ofUInt16 count ++
        (List.ofFn fun i => Bytes.ofUInt16 (names i) ++ (values i).encode).flatten))
  | array count values =>
      tagByte '[' :: (Bytes.ofUInt16 count ++ (List.ofFn fun i => (values i).encode).flatten)

/-- How many containers of a value stand around its most deeply nested values. -/
def depth : ElementValue → Nat
  | constant .. => 0
  | enumeration .. => 0
  | annotation _ _ _ values => Finset.univ.sup fun i => (values i).depth + 1
  | array _ values => Finset.univ.sup fun i => (values i).depth + 1

theorem encode_ne_nil (value : ElementValue) : value.encode ≠ [] := by
  cases value <;> simp [encode]

end ElementValue

open ElementValue
open Reader (reads_word reads_byte reads_take)

/-- With enough levels to go, exactly the bytes of a value are skipped. -/
theorem reads_skipValue {value : ElementValue} {levels : Nat} (enough : value.depth < levels) :
    (skipValue levels).Reads value.encode () := by
  induction levels generalizing value with
  | zero => exact absurd enough (Nat.not_lt_zero _)
  | succ levels ih =>
      cases value with
      | constant tag known slot =>
          have slot_read := (reads_take .elementValue (Bytes.ofUInt16 slot)).bind_pure fun _ => ()
          apply Reader.reads_position_bind
          intro offset
          apply (reads_byte .elementValue (tagByte tag)).bind
          fin_cases known <;> exact slot_read
      | enumeration type name =>
          apply Reader.reads_position_bind
          intro offset
          apply (reads_byte .elementValue (tagByte 'e')).bind
          exact (reads_take _ (Bytes.ofUInt16 type ++ Bytes.ofUInt16 name)).bind_pure fun _ => ()
      | annotation type count names values =>
          have member : ∀ i, (skipValue levels).Reads (values i).encode () := fun i =>
            ih (Finset.sup_le_iff.1 (Nat.le_of_lt_succ enough) i (Finset.mem_univ i))
          have element : ∀ i, (Reader.take .innerAnnotations 2 >>= fun _ => skipValue levels).Reads
              (Bytes.ofUInt16 (names i) ++ (values i).encode) () := fun i =>
            (reads_take _ (Bytes.ofUInt16 (names i))).bind (member i)
          apply Reader.reads_position_bind
          intro offset
          apply (reads_byte .elementValue (tagByte '@')).bind
          apply (reads_take .innerAnnotations (Bytes.ofUInt16 type)).bind
          apply (reads_word .innerAnnotations count).bind
          exact (Reader.reads_times_ofFn element).bind_pure fun _ => ()
      | array count values =>
          have member : ∀ i, (skipValue levels).Reads (values i).encode () := fun i =>
            ih (Finset.sup_le_iff.1 (Nat.le_of_lt_succ enough) i (Finset.mem_univ i))
          apply Reader.reads_position_bind
          intro offset
          apply (reads_byte .elementValue (tagByte '[')).bind
          apply (reads_word .elementArray count).bind
          exact (Reader.reads_times_ofFn member).bind_pure fun _ => ()

/-- With too few levels to go, a value is refused where the first value stands too deep in it. -/
theorem skipValue_refuses {value : ElementValue} {levels : Nat} (short : levels ≤ value.depth) :
    (skipValue levels).Refuses .annotationNesting value.encode := by
  induction levels generalizing value with
  | zero => exact ⟨0, List.length_pos_of_ne_nil value.encode_ne_nil, fun _ _ => rfl⟩
  | succ levels ih =>
      -- every member of a container is skipped or refused, and one of them is too deep
      have known : ∀ value : ElementValue, (∃ skipped, (skipValue levels).Reads value.encode skipped) ∨
          (skipValue levels).Refuses .annotationNesting value.encode := by
        intro value
        rcases Nat.lt_or_ge value.depth levels with enough | short
        · exact .inl ⟨(), reads_skipValue enough⟩
        · exact .inr (ih short)
      cases value with
      | constant | enumeration => exact absurd short (Nat.not_succ_le_zero levels)
      | annotation type count names values =>
          rcases (Finset.le_sup_iff (Nat.succ_pos levels)).1 short with ⟨deep, _, deeper⟩
          let skipElement := Reader.take .innerAnnotations 2 >>= fun _ => skipValue levels
          let piece i := Bytes.ofUInt16 (names i) ++ (values i).encode
          have name : ∀ i, (Reader.take .innerAnnotations 2).Reads (Bytes.ofUInt16 (names i)) _ :=
            fun i => reads_take _ (Bytes.ofUInt16 (names i))
          have element : ∀ i, (∃ skipped, skipElement.Reads (piece i) skipped) ∨
              skipElement.Refuses .annotationNesting (piece i) := fun i =>
            (known (values i)).imp (fun ⟨_, reads⟩ => ⟨_, (name i).bind reads⟩)
              (name i).bind_refuses
          have elements := Reader.times_refuses_ofFn element
            ⟨deep, (name deep).bind_refuses (ih (Nat.le_of_succ_le_succ deeper))⟩
          have header : (do
              let _ ← Reader.take .innerAnnotations 2
              let count ← Reader.word .innerAnnotations
              let _ ← Reader.times count.toNat skipElement).Refuses .annotationNesting
                (Bytes.ofUInt16 type ++ (Bytes.ofUInt16 count ++ (List.ofFn piece).flatten)) :=
            (reads_take _ (Bytes.ofUInt16 type)).bind_refuses
              ((reads_word _ count).bind_refuses (elements.bind_pure fun _ => ()))
          exact Reader.refuses_tagged (fun _ => rfl) header
      | array count values =>
          rcases (Finset.le_sup_iff (Nat.succ_pos levels)).1 short with ⟨deep, _, deeper⟩
          have members := Reader.times_refuses_ofFn (fun i => known (values i))
            ⟨deep, ih (Nat.le_of_succ_le_succ deeper)⟩
          have counted : (do
              let count ← Reader.word .elementArray
              let _ ← Reader.times count.toNat (skipValue levels)).Refuses .annotationNesting
                (Bytes.ofUInt16 count ++ (List.ofFn fun i => (values i).encode).flatten) :=
            (reads_word _ count).bind_refuses (members.bind_pure fun _ => ())
          exact Reader.refuses_tagged (fun _ => rfl) counted

/-! ## Lists of annotations -/

/-- What the name of an annotation type is, given its descriptor: that of the class which the
descriptor stands for, and the whole text if it stands for none. -/
inductive Names : String → String → Prop where
  | classType (name : String) : Names ("L" ++ name ++ ";") (Pool.dottedName name)
  | other {descriptor : String} (notClass : ∀ name, descriptor ≠ "L" ++ name ++ ";") :
      Names descriptor (Pool.dottedName descriptor)

theorem classPart_of_class (name : List Char) : classPart ('L' :: (name ++ [';'])) = name := by
  simp [classPart]

theorem classPart_of_other {chars : List Char} (notClass : ∀ name, chars ≠ 'L' :: (name ++ [';'])) :
    classPart chars = chars := by
  unfold classPart
  split
  · next rest =>
      split
      · next name reversed =>
          have class_rest : rest = name.reverse ++ [';'] := by
            rw [← List.reverse_reverse rest, reversed, List.reverse_cons]
          exact absurd (congrArg _ class_rest) (notClass name.reverse)
      · rfl
  · rfl

theorem typeNameOf_of_class (name : String) :
    typeNameOf ("L" ++ name ++ ";") = Pool.dottedName name := by
  have chars : ("L" ++ name ++ ";").toList = 'L' :: (name.toList ++ [';']) := by simp
  rw [typeNameOf, chars, classPart_of_class, Pool.dottedName]

theorem typeNameOf_of_other {descriptor : String}
    (notClass : ∀ name, descriptor ≠ "L" ++ name ++ ";") :
    typeNameOf descriptor = Pool.dottedName descriptor := by
  have chars : ∀ name, descriptor.toList ≠ 'L' :: (name ++ [';']) := by
    intro name same
    apply notClass (String.ofList name)
    apply String.toList_injective
    simpa using same
  rw [typeNameOf, classPart_of_other chars, Pool.dottedName]

/-- Every descriptor names one type, the one that is given out. -/
theorem names_iff {descriptor name : String} :
    Names descriptor name ↔ typeNameOf descriptor = name := by
  constructor
  · intro names
    cases names with
    | classType name => exact typeNameOf_of_class name
    | other notClass => exact typeNameOf_of_other notClass
  · rintro rfl
    by_cases isClass : ∃ name, descriptor = "L" ++ name ++ ";"
    · rcases isClass with ⟨name, rfl⟩
      exact typeNameOf_of_class name ▸ .classType name
    · have notClass := not_exists.1 isClass
      exact typeNameOf_of_other notClass ▸ .other notClass

/-- Items that are written one by one are read as what each of them stands for. -/
theorem forall₂_map_of_mem {α β γ : Type} {relation : α → β → Prop} {reads : β → γ → Prop}
    {write : α → γ} {items : List α} {values : List β} (related : List.Forall₂ relation items values)
    (each : ∀ item ∈ items, ∀ value, relation item value → reads value (write item)) :
    List.Forall₂ reads values (items.map write) := by
  have both := (List.forall₂_and_left items values).2 ⟨each, related⟩
  apply List.Forall₂.flip
  rw [List.forall₂_map_left_iff]
  exact both.imp fun item value known => known.1 value known.2

variable {pool : Pool}

/-- An element is read by its name; its value is skipped. -/
theorem reads_element {slot : UInt16} {name : String} {value : ElementValue}
    (named : pool.utf8 slot = .ok name) (enough : value.depth < maxDepth + 1) :
    (readElement pool).Reads (Bytes.ofUInt16 slot ++ value.encode) name := by
  apply (reads_word _ slot).bind
  apply (Reader.reads_ofExcept named).bind_of_nil
  exact (reads_skipValue enough).bind_pure fun _ => name

/-- An annotation is read from its type and its elements. -/
theorem reads_use {type : UInt16} {descriptor : String} {members : List String}
    {pieces : List Bytes} (typed : pool.utf8 type = .ok descriptor)
    (elements : List.Forall₂ (fun name piece => (readElement pool).Reads piece name) members pieces)
    (count : members.length ≤ 65535) :
    (read pool).Reads
      (Bytes.ofUInt16 type ++ (Bytes.ofUInt16 (UInt16.ofNat members.length) ++ pieces.flatten))
      ⟨typeNameOf descriptor, members⟩ := by
  apply (reads_word _ type).bind
  apply (Reader.reads_ofExcept typed).bind_of_nil
  apply (reads_word _ _).bind
  exact (Reader.reads_times elements (toNat_ofNat_of_le count)).bind_pure _

theorem reads_uses {uses : List AnnotationUse} {pieces : List Bytes}
    (members : List.Forall₂ (fun use piece => (read pool).Reads piece use) uses pieces)
    (count : uses.length ≤ 65535) :
    (readList pool).Reads (Bytes.ofUInt16 (UInt16.ofNat uses.length) ++ pieces.flatten) uses :=
  (reads_word _ _).bind (Reader.reads_times members (toNat_ofNat_of_le count))

/-- An annotation as it is stored: the slots of its type and of the names of its elements, each
element with its value. -/
structure Stored where
  type : UInt16
  elements : List (UInt16 × ElementValue)
  count : elements.length ≤ 65535 := by decide

namespace Stored

/-- The bytes of an annotation. -/
def encode (stored : Stored) : Bytes :=
  Bytes.ofUInt16 stored.type ++ (Bytes.ofUInt16 (UInt16.ofNat stored.elements.length) ++
    (stored.elements.map fun element => Bytes.ofUInt16 element.1 ++ element.2.encode).flatten)

/-- The bytes of a counted list of annotations. -/
def encodeList (list : List Stored) : Bytes :=
  Bytes.ofUInt16 (UInt16.ofNat list.length) ++ (list.map encode).flatten

/-- An annotation has the type that is stored, and the names of the stored elements in order. -/
structure Means (pool : Pool) (stored : Stored) (use : AnnotationUse) : Prop where
  typed : ∃ descriptor, pool.utf8 stored.type = .ok descriptor ∧ Names descriptor use.typeName
  named : List.Forall₂ (fun element name => pool.utf8 element.1 = .ok name) stored.elements
    use.members

/-- A stored annotation whose values are not too deep is read as what it means. -/
theorem Means.reads {stored : Stored} {use : AnnotationUse} (means : Means pool stored use)
    (enough : ∀ element ∈ stored.elements, element.2.depth ≤ 32) :
    (read pool).Reads stored.encode use := by
  rcases means.typed with ⟨descriptor, typed, names⟩
  have elements : List.Forall₂ (fun name piece => (readElement pool).Reads piece name) use.members
      (stored.elements.map fun element => Bytes.ofUInt16 element.1 ++ element.2.encode) :=
    forall₂_map_of_mem means.named fun element member name named =>
      reads_element named (Nat.lt_succ_of_le (enough element member))
  have size : use.members.length = stored.elements.length := means.named.length_eq.symm
  have reads := reads_use typed elements (size ▸ stored.count)
  rwa [names_iff.1 names, size] at reads

end Stored

/-- Values that are nested at most 32 deep are skipped exactly, and deeper ones are refused; so a
list of annotations is read with the types and the names of the elements that stand in it. -/
theorem values_skipped_exactly :
    (∀ value : ElementValue,
      (value.depth ≤ 32 → (skipValue (maxDepth + 1)).Reads value.encode ()) ∧
      (33 ≤ value.depth → (skipValue (maxDepth + 1)).Refuses .annotationNesting value.encode)) ∧
    ∀ (pool : Pool) (list : List Stored) (uses : List AnnotationUse), list.length ≤ 65535 →
      (∀ stored ∈ list, ∀ element ∈ stored.elements, element.2.depth ≤ 32) →
      List.Forall₂ (Stored.Means pool) list uses →
      (readList pool).Reads (Stored.encodeList list) uses := by
  constructor
  · intro value
    constructor
    · intro shallow
      exact reads_skipValue (Nat.lt_succ_of_le shallow)
    · exact skipValue_refuses
  · intro pool list uses count shallow means
    have size : uses.length = list.length := means.length_eq.symm
    have reads := reads_uses
      (forall₂_map_of_mem means fun stored member use meaning => meaning.reads (shallow stored member))
      (size ▸ count)
    rwa [size] at reads

/-- A value in as many arrays of one value each. -/
def ElementValue.boxed : Nat → ElementValue → ElementValue
  | 0, value => value
  | boxes + 1, value => .array 1 ![value.boxed boxes]

/-- A value at the greatest depth, one below it, and two annotations, the first of which contains a
further annotation beside a value at the greatest depth. -/
theorem values_skipped_exactly_boxed :
    let leaf := ElementValue.enumeration 1 2
    let inner := ElementValue.annotation 1 1 ![2] ![.constant 'I' (by decide) 2]
    let pool : Pool := ⟨#[none, some (.utf8 "La/b;"), some (.utf8 "deep"), some (.utf8 "plain"),
      some (.utf8 "I")]⟩
    let list : List Stored := [⟨1, [(2, leaf.boxed 32), (3, inner)], by decide⟩, ⟨4, [], by decide⟩]
    let uses : List AnnotationUse := [⟨"a.b", ["deep", "plain"]⟩, ⟨"I", []⟩]
    (leaf.boxed 32).depth ≤ 32 ∧ (skipValue (maxDepth + 1)).Reads (leaf.boxed 32).encode () ∧
    33 ≤ (leaf.boxed 33).depth ∧
      (skipValue (maxDepth + 1)).Refuses .annotationNesting (leaf.boxed 33).encode ∧
    list.length ≤ 65535 ∧ (∀ stored ∈ list, ∀ element ∈ stored.elements, element.2.depth ≤ 32) ∧
    List.Forall₂ (Stored.Means pool) list uses ∧
    (readList pool).Reads (Stored.encodeList list) uses := by
  intro leaf inner pool list uses
  have shallow : (leaf.boxed 32).depth ≤ 32 := by decide +kernel
  have deep : 33 ≤ (leaf.boxed 33).depth := by decide +kernel
  have count : list.length ≤ 65535 := by decide
  have values : ∀ stored ∈ list, ∀ element ∈ stored.elements, element.2.depth ≤ 32 := by
    decide +kernel
  have means : List.Forall₂ (Stored.Means pool) list uses :=
    .cons ⟨⟨"La/b;", rfl, names_iff.2 (by decide +kernel)⟩, .cons rfl (.cons rfl .nil)⟩
      (.cons ⟨⟨"I", rfl, names_iff.2 (by decide +kernel)⟩, .nil⟩ .nil)
  exact ⟨shallow, (values_skipped_exactly.1 _).1 shallow, deep,
    (values_skipped_exactly.1 _).2 deep, count, values, means,
    values_skipped_exactly.2 pool list uses count values means⟩

end AnnotationUse

end ApiCoverage.ClassFile
