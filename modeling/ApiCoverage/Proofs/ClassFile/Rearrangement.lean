import ApiCoverage.Proofs.ClassFile.Layout
import ApiCoverage.Proofs.ClassFile.PoolDraft
import Mathlib.Logic.Relation

/-!
# Unknown attributes and the order of attributes

A class file can be rearranged at every level at which it lists attributes: an attribute whose name
is not recognised there is added, or attributes are put into another order, as long as no recognised
name occurs twice among them. All counts and lengths around the place follow. The rearranged file
opens as the same class. Besides, a method is deprecated if any of its attributes says so, and the
line tables of one body count as a single table in file order.
-/

namespace ApiCoverage.ClassFile

/-- One member of a list is changed. -/
inductive OneChanged {α : Type} (step : α → α → Prop) : List α → List α → Prop where
  | intro (before after : List α) {member changed : α} (related : step member changed) :
      OneChanged step (before ++ member :: after) (before ++ changed :: after)

theorem OneChanged.mapM_eq {α β : Type} {step : α → α → Prop} {list changed : List α}
    {meaning : α → Option β} (one : OneChanged step list changed)
    (same : ∀ member other, step member other → meaning other = meaning member) :
    changed.mapM meaning = list.mapM meaning := by
  cases one with
  | intro before after related => simp [same _ _ related]

/-- A field or a method with another list of attributes. -/
def Member.Rearranged (step : List RawAttribute → List RawAttribute → Prop)
    (member other : Member) : Prop :=
  ∃ attributes : Counted RawAttribute,
    step member.attributes.entries attributes.entries ∧ other = { member with attributes }

/-- A `Code` attribute with the attributes of its code rearranged. -/
def CodeLayout.Rearranged (pool : Pool) (entry other : RawAttribute) : Prop :=
  entry.name? pool = some "Code" ∧ other.slot = entry.slot ∧
    ∃ (layout : CodeLayout) (attributes : Counted RawAttribute),
      Attribute.Rearranged ["LineNumberTable"] pool layout.attributes.entries attributes.entries ∧
        entry.body = layout.encode ∧ other.body = { layout with attributes }.encode

/-- A class file with one of its lists of attributes rearranged. -/
inductive FileLayout.Rearranged (file : FileLayout) : FileLayout → Prop where
  | ofClass (attributes : Counted RawAttribute)
      (step : Attribute.Rearranged ["SourceFile", "RuntimeVisibleAnnotations"] file.pool
        file.attributes.entries attributes.entries) :
      Rearranged file { file with attributes }
  | ofField (fields : Counted Member)
      (step : OneChanged (Member.Rearranged (Attribute.Rearranged [] file.pool))
        file.fields.entries fields.entries) :
      Rearranged file { file with fields }
  | ofMethod (methods : Counted Member)
      (step : OneChanged (Member.Rearranged (Attribute.Rearranged
          ["Code", "Deprecated", "RuntimeVisibleAnnotations", "RuntimeVisibleParameterAnnotations"]
          file.pool))
        file.methods.entries methods.entries) :
      Rearranged file { file with methods }
  | ofCode (methods : Counted Member)
      (step : OneChanged (Member.Rearranged (OneChanged (CodeLayout.Rearranged file.pool)))
        file.methods.entries methods.entries) :
      Rearranged file { file with methods }

/-! ## What a rearranged file is read as -/

theorem CodeLayout.Rearranged.effectOf_eq {pool : Pool} {entry other : RawAttribute}
    (rearranged : CodeLayout.Rearranged pool entry other) :
    (MethodDecl.level pool).effectOf pool other = (MethodDecl.level pool).effectOf pool entry := by
  rcases rearranged with ⟨named, slot, layout, attributes, step, body, otherBody⟩
  have otherNamed : other.name? pool = some "Code" := by rw [← named, RawAttribute.name?, slot]; rfl
  have same : ({ layout with attributes } : CodeLayout).body? pool = layout.body? pool := by
    rw [CodeLayout.body?, CodeBody.level.run_eq_of_rearranged step]
    rfl
  simp only [Attribute.Level.effectOf, named, otherNamed, Option.bind_some, MethodDecl.effect_code,
    body, otherBody, CodeLayout.outcome?_encode, same]

theorem CodeLayout.Rearranged.run_eq {pool : Pool} {entries others : List RawAttribute}
    (one : OneChanged (CodeLayout.Rearranged pool) entries others) (method : MethodDecl) :
    (MethodDecl.level pool).run pool others method =
      (MethodDecl.level pool).run pool entries method := by
  cases one with
  | intro before after related =>
      simp only [Attribute.Level.run_append, Attribute.Level.run, related.effectOf_eq]

theorem Member.Rearranged.method?_eq {pool : Pool}
    {step : List RawAttribute → List RawAttribute → Prop} {member other : Member}
    (rearranged : Member.Rearranged step member other)
    (same : ∀ entries others, step entries others → ∀ method,
      (MethodDecl.level pool).run pool others method =
        (MethodDecl.level pool).run pool entries method) :
    other.method? pool = member.method? pool := by
  rcases rearranged with ⟨attributes, changed, rfl⟩
  simp only [Member.method?, same _ _ changed]

/-- A rearranged file has the same parts. -/
theorem FileLayout.Rearranged.parts?_eq {file other : FileLayout}
    (rearranged : file.Rearranged other) : other.parts? = file.parts? := by
  cases rearranged with
  | ofClass attributes step =>
      simp only [FileLayout.parts?, SectionsLayout.sections?,
        (ClassUnit.level file.pool).run_eq_of_rearranged step]
  | ofField fields step => rfl
  | ofMethod methods step =>
      have same := step.mapM_eq fun _ _ changed => changed.method?_eq fun _ _ rearranged =>
        (MethodDecl.level file.pool).run_eq_of_rearranged rearranged
      simp only [FileLayout.parts?, SectionsLayout.sections?, same]
  | ofCode methods step =>
      have same := step.mapM_eq fun _ _ changed => changed.method?_eq fun _ _ =>
        CodeLayout.Rearranged.run_eq
      simp only [FileLayout.parts?, SectionsLayout.sections?, same]

/-- A file can be rearranged any number of times. -/
theorem FileLayout.ofBytes_eq_ok_of_rearranged {file other : FileLayout} {unit : ClassUnit}
    (opened : ClassUnit.ofBytes file.encode = .ok unit)
    (rearranged : Relation.ReflTransGen FileLayout.Rearranged file other) :
    ClassUnit.ofBytes other.encode = .ok unit := by
  induction rearranged with
  | refl => exact opened
  | tail _ step ih =>
      rw [FileLayout.ofBytes_encode_eq_ok_iff] at ih ⊢
      rwa [step.parts?_eq]

/-! ## What the attributes of a method say -/

/-- A laid-out method says of its attributes what the method that is read says. -/
structure Member.Means (pool : Pool) (member : Member) (method : MethodDecl) : Prop where
  deprecated : method.deprecated = true ↔
    ∃ entry ∈ member.attributes.entries, MethodDecl.MarksDeprecated pool entry
  body : method.body = (RawAttribute.called pool "Code" member.attributes.entries).getLast?.bind
    (RawAttribute.read? (CodeBody.read pool))
  code : ∀ entry ∈ RawAttribute.called pool "Code" member.attributes.entries,
    (∃ layout : CodeLayout, layout.encode = entry.body) ∧
      ∀ layout : CodeLayout, layout.encode = entry.body → ∃ tables,
        List.Forall₂
          (fun (table : RawAttribute) rows => table.read? LineEntry.readTable = some rows)
          (RawAttribute.called pool "LineNumberTable" layout.attributes.entries) tables ∧
        entry.read? (CodeBody.read pool) = some
          (.ofTable layout.code (if tables = [] then none else some tables.flatten))

/-- The line tables of a body count as one. -/
theorem CodeLayout.exists_tables {pool : Pool} {layout : CodeLayout} {code : CodeBody}
    (given : layout.body? pool = some code) :
    ∃ tables, List.Forall₂
        (fun (table : RawAttribute) rows => table.read? LineEntry.readTable = some rows)
        (RawAttribute.called pool "LineNumberTable" layout.attributes.entries) tables ∧
      code = .ofTable layout.code (if tables = [] then none else some tables.flatten) := by
  rcases Option.map_eq_some_iff.1 given with ⟨table, run, rfl⟩
  rcases CodeBody.exists_tables_of_run run with ⟨tables, shapes, rfl⟩
  refine ⟨tables, shapes, ?_⟩
  cases tables <;> simp

theorem Member.means_of_method? {pool : Pool} {member : Member} {method : MethodDecl}
    (given : member.method? pool = some method) : member.Means pool method := by
  rcases Option.bind_eq_some_iff.1 given with ⟨name, _, described⟩
  rcases Option.bind_eq_some_iff.1 described with ⟨descriptor, _, run⟩
  constructor
  · simpa using MethodDecl.deprecated_of_run run
  · rw [MethodDecl.body_of_run run]
    cases (RawAttribute.called pool "Code" member.attributes.entries).getLast? <;> rfl
  · intro entry listed
    rcases List.mem_filter.1 listed with ⟨member, called⟩
    have named : entry.name? pool = some "Code" := of_decide_eq_true called
    rcases Attribute.Level.exists_effectOf_of_run run member with ⟨change, effect⟩
    rw [Attribute.Level.effectOf, named, Option.bind_some, MethodDecl.effect_code] at effect
    rcases Option.map_eq_some_iff.1 effect with ⟨code, read, _⟩
    refine ⟨CodeLayout.exists_encode_eq read, fun layout same => ?_⟩
    have outcome := layout.outcome?_encode pool
    rw [same, read] at outcome
    rcases CodeLayout.exists_tables outcome.symm with ⟨tables, shapes, rfl⟩
    exact ⟨tables, shapes, read⟩

theorem FileLayout.forall₂_means {file : FileLayout} {unit : ClassUnit}
    (opened : ClassUnit.ofBytes file.encode = .ok unit) :
    List.Forall₂ (Member.Means file.pool) file.methods.entries unit.methods := by
  rcases ofBytes_encode_eq_ok_iff.1 opened with ⟨parts, given, resolved⟩
  rcases Option.map_eq_some_iff.1 given with ⟨sections, read, rfl⟩
  rcases Outcome.map_eq_ok_iff.1 resolved with ⟨symbols, _, rfl⟩
  rcases Option.bind_eq_some_iff.1 read with ⟨_, _, afterName⟩
  rcases Option.bind_eq_some_iff.1 afterName with ⟨_, _, afterSuper⟩
  rcases Option.bind_eq_some_iff.1 afterSuper with ⟨_, _, afterInterfaces⟩
  rcases Option.bind_eq_some_iff.1 afterInterfaces with ⟨methods, members, finished⟩
  rcases Option.map_eq_some_iff.1 finished with ⟨attributes, _, rfl⟩
  exact (Outcome.forall₂_of_mapM members).imp fun _ _ => Member.means_of_method?

/-- Unknown attributes and the order of attributes do not matter. A class file that opens has a
layout, and however its layout is rearranged, the file opens as the same class; a method of the class
is deprecated if any attribute says so, and its lines are those of all line tables of its code. -/
theorem ofBytes_rearranged {bytes : Bytes} {unit : ClassUnit}
    (opened : ClassUnit.ofBytes bytes = .ok unit) :
    (∃ file : FileLayout, file.encode = bytes) ∧
      ∀ file : FileLayout, file.encode = bytes →
        (∀ other, Relation.ReflTransGen FileLayout.Rearranged file other →
          ClassUnit.ofBytes other.encode = .ok unit) ∧
        List.Forall₂ (Member.Means file.pool) file.methods.entries unit.methods := by
  refine ⟨FileLayout.exists_encode_eq opened, ?_⟩
  rintro file rfl
  exact ⟨fun other => FileLayout.ofBytes_eq_ok_of_rearranged opened, FileLayout.forall₂_means opened⟩

/-- The constants of a class with one method, and a text that names nothing. -/
def twoTablesPool : PoolDraft :=
  ⟨[.utf8 "A", .classReference 1, .utf8 "m", .utf8 "()V", .utf8 "Code", .utf8 "LineNumberTable",
    .utf8 "Deprecated", .utf8 "Note"]⟩

/-- A `Code` attribute with two line tables. -/
def twoTablesCode : RawAttribute :=
  let code : CodeLayout := {
    limits := [0, 0, 0, 0], code := [0xb1], handlerCount := 0, handlers := []
    attributes :=
      ⟨[⟨6, [0, 1, 0, 0, 0, 7], by decide⟩, ⟨6, [0, 1, 0, 0, 0, 8], by decide⟩], by decide⟩
    slack := [], limits_length := rfl, code_small := by decide, handlers_length := rfl }
  ⟨5, code.encode, by decide⟩

def deprecatedMark : RawAttribute :=
  ⟨7, [], by decide⟩

def unknownNote : RawAttribute :=
  ⟨8, [1, 2, 3], by decide⟩

/-- A class with a deprecated method, given the attributes of the class and those of the method. -/
def twoTablesFile (attributes methodAttributes : Counted RawAttribute) : FileLayout where
  access := 0
  name := 2
  superName := 0
  interfaces := ⟨[], by decide⟩
  fields := ⟨[], by decide⟩
  methods := ⟨[⟨0, 3, 4, methodAttributes⟩], by simp⟩
  attributes := attributes
  minorVersion := 0
  majorVersion := 61
  poolBytes := Drafting.count twoTablesPool.nextSlot ++ twoTablesPool.encode
  pool := twoTablesPool.toPool
  oldest := by decide
  newest := by decide
  readsPool := PoolDraft.reads_toPool (by decide +kernel)

/-- An unknown attribute is added to the class, and the attributes of the method are swapped. -/
theorem ofBytes_rearranged_twoTables :
    ∃ unit,
      ClassUnit.ofBytes (twoTablesFile ⟨[], by decide⟩
        ⟨[twoTablesCode, deprecatedMark], by decide⟩).encode = .ok unit ∧
      ClassUnit.ofBytes (twoTablesFile ⟨[unknownNote], by decide⟩
        ⟨[deprecatedMark, twoTablesCode], by decide⟩).encode = .ok unit := by
  have opens : (ClassUnit.ofBytes (twoTablesFile ⟨[], by decide⟩
      ⟨[twoTablesCode, deprecatedMark], by decide⟩).encode).isOk = true := by decide +kernel
  rcases Outcome.exists_of_isOk opens with ⟨unit, opened⟩
  have noted : FileLayout.Rearranged
      (twoTablesFile ⟨[], by decide⟩ ⟨[twoTablesCode, deprecatedMark], by decide⟩)
      (twoTablesFile ⟨[unknownNote], by decide⟩ ⟨[twoTablesCode, deprecatedMark], by decide⟩) :=
    .ofClass _ (.insert [] [] _ (by decide +kernel : _ = some "Note") (by decide))
  have swapped : FileLayout.Rearranged
      (twoTablesFile ⟨[unknownNote], by decide⟩ ⟨[twoTablesCode, deprecatedMark], by decide⟩)
      (twoTablesFile ⟨[unknownNote], by decide⟩ ⟨[deprecatedMark, twoTablesCode], by decide⟩) := by
    refine .ofMethod _ (.intro [] [] ⟨_, .permute (.swap _ _ []) (List.pairwise_pair.2 ?_), rfl⟩)
    intro name _ named same
    have names : twoTablesCode.name? twoTablesPool.toPool ≠
        deprecatedMark.name? twoTablesPool.toPool := by decide +kernel
    exact names (named.trans same.symm)
  exact ⟨unit, opened, ((ofBytes_rearranged opened).2 _ rfl).1 _ (.tail (.single noted) swapped)⟩

end ApiCoverage.ClassFile
