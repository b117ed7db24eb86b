import ApiCoverage.Proofs.ClassFile.Levels

/-!
# How a class file is laid out

A class file that is read up to its end is a constant pool, a header, and counted lists of
interfaces, fields, methods and attributes, where the counts fit two bytes and the lengths four. A
layout holds these parts and knows its bytes. Up to faults, what is read from the bytes of a layout
can be told from its parts, and every file that can be read is the bytes of some layout. The body of
a `Code` attribute is laid out in the same way, except that bytes behind its attributes are never
looked at.
-/

namespace ApiCoverage.ClassFile

open Reader

/-- A list whose length fits two bytes. -/
structure Counted (α : Type) where
  entries : List α
  few : entries.length ≤ 65535

namespace Counted

variable {α β : Type}

/-- The bytes of a counted list, given those of its members. -/
def encode (write : α → Bytes) (list : Counted α) : Bytes :=
  Drafting.count list.entries.length ++ list.entries.flatMap write

/-- A count is read, and then what it counts. -/
theorem gives {part : Part} {next : UInt16 → Reader β} {write : α → Bytes} (list : Counted α)
    {outcome : Option β} (after : ∀ count : UInt16, count.toNat = list.entries.length →
      (next count).Gives (list.entries.flatMap write) outcome) :
    (word part >>= next).Gives (list.encode write) outcome :=
  (reads_word _ _).bind_gives (after _ (toNat_ofNat_of_le list.few))

theorem exists_of_read {part : Part} {next : UInt16 → Reader β} {write : α → Bytes}
    {cursor last : Cursor} {result : β}
    (after : ∀ ⦃count cursor⦄, next count cursor = .ok (result, last) →
      ∃ entries : List α, entries.length = count.toNat ∧
        cursor.rest = entries.flatMap write ++ last.rest)
    (succeeds : (word part >>= next) cursor = .ok (result, last)) :
    ∃ list : Counted α, cursor.rest = list.encode write ++ last.rest := by
  rcases bind_eq_ok_iff.1 succeeds with ⟨count, later, counted, tail⟩
  rcases after tail with ⟨entries, length_eq, given⟩
  refine ⟨⟨entries, length_eq ▸ Nat.le_of_lt_succ count.toNat_lt⟩, ?_⟩
  change _ = Drafting.count entries.length ++ entries.flatMap write ++ _
  rw [rest_of_word counted, given, Drafting.count, length_eq, UInt16.ofNat_toNat,
    List.append_assoc]

end Counted

/-! ## Code -/

/-- The body of a `Code` attribute. -/
structure CodeLayout where
  /-- The greatest stack depth and the number of local variables. -/
  limits : Bytes
  code : Bytes
  handlerCount : UInt16
  handlers : Bytes
  attributes : Counted RawAttribute
  /-- Bytes behind the attributes. -/
  slack : Bytes
  limits_length : limits.length = 4
  code_small : code.length < UInt32.size
  handlers_length : handlers.length = handlerCount.toNat * 8

namespace CodeLayout

/-- The bytes of a method body up to the end of its attributes. -/
def front (layout : CodeLayout) : Bytes :=
  layout.limits ++ (Bytes.ofUInt32 (UInt32.ofNat layout.code.length) ++ (layout.code ++
    (Bytes.ofUInt16 layout.handlerCount ++ (layout.handlers ++
      layout.attributes.encode RawAttribute.encode))))

/-- The bytes of a method body. -/
def encode (layout : CodeLayout) : Bytes :=
  layout.front ++ layout.slack

/-- Up to faults, the body that is read. -/
def body? (pool : Pool) (layout : CodeLayout) : Option CodeBody :=
  (CodeBody.level.run pool layout.attributes.entries none).map fun table =>
    .ofTable layout.code (table.map List.reverse)

theorem gives_read (pool : Pool) (layout : CodeLayout) :
    (CodeBody.read pool).Gives layout.front (layout.body? pool) := by
  unfold CodeBody.read front
  refine (reads_take_of_length layout.limits_length).bind_gives ?_
  refine (reads_doubleWord _ _).bind_gives ?_
  refine (reads_take_of_length (toNat_ofNat_of_lt layout.code_small).symm).bind_gives ?_
  refine (reads_word _ _).bind_gives ?_
  refine (reads_take_of_length layout.handlers_length).bind_gives ?_
  refine layout.attributes.gives fun count counted => ?_
  rw [counted, CodeBody.withAttribute_eq_act]
  exact (CodeBody.level.gives_fold _ none).bind_pure _

theorem outcome?_encode (pool : Pool) (layout : CodeLayout) :
    (CodeBody.read pool).outcome? layout.encode = layout.body? pool := by
  rw [outcome?, encode, layout.gives_read pool 0 layout.slack, Option.map_map]
  exact Option.map_id'

/-- Code that can be read is laid out in this way. -/
theorem exists_encode_eq {pool : Pool} {body : Bytes} {code : CodeBody}
    (given : (CodeBody.read pool).outcome? body = some code) :
    ∃ layout : CodeLayout, layout.encode = body := by
  rcases Option.map_eq_some_iff.1 given with ⟨⟨_, last⟩, read, rfl⟩
  have read := Outcome.toOption_eq_some_iff.1 read
  rcases bind_eq_ok_iff.1 read with ⟨limits, _, taken, afterLimits⟩
  rcases bind_eq_ok_iff.1 afterLimits with ⟨length, _, measured, afterLength⟩
  rcases bind_eq_ok_iff.1 afterLength with ⟨code, _, codeTaken, afterCode⟩
  rcases bind_eq_ok_iff.1 afterCode with ⟨handlerCount, _, counted, afterCount⟩
  rcases bind_eq_ok_iff.1 afterCount with ⟨handlers, later, handlersTaken, afterHandlers⟩
  have listed : ∃ list : Counted RawAttribute,
      later.rest = list.encode RawAttribute.encode ++ last.rest := by
    refine Counted.exists_of_read (fun count cursor folded => ?_) afterHandlers
    rcases bind_eq_ok_iff.1 folded with ⟨table, _, entries, finished⟩
    cases finished
    exact Attribute.exists_entries_of_fold entries
  rcases listed with ⟨attributes, behind⟩
  rcases rest_of_take taken with ⟨front, four⟩
  rcases rest_of_take codeTaken with ⟨codeFront, codeLength⟩
  rcases rest_of_take handlersTaken with ⟨handlersFront, handlersLength⟩
  refine ⟨⟨limits, code, handlerCount, handlers, attributes, last.rest, four,
    codeLength ▸ length.toNat_lt, handlersLength⟩, ?_⟩
  change body = _ at front
  rw [front, rest_of_doubleWord measured, codeFront, rest_of_word counted, handlersFront, behind]
  simp only [encode, CodeLayout.front, codeLength, UInt32.ofNat_toNat, List.append_assoc]

end CodeLayout

/-! ## Fields and methods -/

namespace Attribute

/-- Reads over one attribute. -/
def skip : Reader Unit := do
  let _ ← Reader.take .attributeHeader 2
  let length ← Reader.doubleWord .attributeHeader
  let _ ← Reader.take .attributeBody length.toNat

theorem skipList_eq : skipList = word .attributes >>= fun count =>
    times count.toNat skip >>= fun _ => pure () :=
  rfl

theorem reads_skip (entry : RawAttribute) : skip.Reads entry.encode () := by
  rw [RawAttribute.encode, encode, List.append_assoc]
  refine (reads_take_of_length (Bytes.length_ofUInt16 _)).bind ((reads_doubleWord _ _).bind ?_)
  exact (reads_take_of_length (toNat_ofNat_of_lt entry.small).symm).bind_pure fun _ => ()

theorem exists_of_skip {cursor last : Cursor} {value : Unit}
    (succeeds : skip cursor = .ok (value, last)) :
    ∃ entry : RawAttribute, cursor.rest = entry.encode ++ last.rest := by
  rcases bind_eq_ok_iff.1 succeeds with ⟨front, _, taken, afterSlot⟩
  rcases bind_eq_ok_iff.1 afterSlot with ⟨length, _, lengthRead, afterLength⟩
  rcases bind_eq_ok_iff.1 afterLength with ⟨body, _, bodyTaken, finished⟩
  cases finished
  rcases rest_of_take taken with ⟨split, two⟩
  rcases rest_of_take bodyTaken with ⟨bodySplit, size⟩
  refine ⟨⟨Bytes.toUInt16 front, body, size ▸ length.toNat_lt⟩, ?_⟩
  change _ = encode (Bytes.toUInt16 front) body ++ _
  rw [split, rest_of_doubleWord lengthRead, bodySplit, encode_of_length size,
    Bytes.ofUInt16_toUInt16 two]
  simp only [List.append_assoc]

theorem reads_skipList (list : Counted RawAttribute) :
    skipList.Reads (list.encode RawAttribute.encode) () := by
  rw [← gives_some_iff, skipList_eq]
  refine list.gives fun count counted => gives_some_iff.2 ?_
  rw [counted]
  exact (reads_times_of_forall reads_skip list.entries).bind_pure fun _ => ()

theorem exists_of_skipList {cursor last : Cursor} {value : Unit}
    (succeeds : skipList cursor = .ok (value, last)) :
    ∃ list : Counted RawAttribute, cursor.rest = list.encode RawAttribute.encode ++ last.rest := by
  rw [skipList_eq] at succeeds
  refine Counted.exists_of_read (fun count cursor skipped => ?_) succeeds
  rcases bind_eq_ok_iff.1 skipped with ⟨_, _, members, finished⟩
  cases finished
  exact exists_items_of_times (fun _ _ _ => exists_of_skip) members

end Attribute

/-- A field or a method. -/
structure Member where
  access : UInt16
  name : UInt16
  descriptor : UInt16
  attributes : Counted RawAttribute

namespace Member

/-- The bytes of a field or a method. -/
def encode (member : Member) : Bytes :=
  Bytes.ofUInt16 member.access ++ (Bytes.ofUInt16 member.name ++
    (Bytes.ofUInt16 member.descriptor ++ member.attributes.encode RawAttribute.encode))

/-- Up to faults, the method that is read. -/
def method? (pool : Pool) (member : Member) : Option MethodDecl := do
  let name ← (pool.utf8 member.name).toOption
  let descriptor ← (pool.utf8 member.descriptor).toOption
  let bare : MethodDecl := ⟨name, descriptor, ⟨member.access⟩, false, [], [], none⟩
  (MethodDecl.level pool).run pool member.attributes.entries bare

theorem gives_readMethod (pool : Pool) (member : Member) :
    (MethodDecl.read pool).Gives member.encode (member.method? pool) := by
  unfold MethodDecl.read encode method?
  refine (reads_word _ _).bind_gives ((reads_word _ _).bind_gives ?_)
  refine (gives_ofExcept _).bind fun name => (reads_word _ _).bind_gives ?_
  refine (gives_ofExcept _).bind fun descriptor => member.attributes.gives fun count counted => ?_
  rw [counted, MethodDecl.withAttribute_eq_act]
  exact (MethodDecl.level pool).gives_fold _ _

theorem exists_of_readMethod {pool : Pool} {cursor last : Cursor} {method : MethodDecl}
    (succeeds : MethodDecl.read pool cursor = .ok (method, last)) :
    ∃ member : Member, cursor.rest = member.encode ++ last.rest := by
  rcases bind_eq_ok_iff.1 succeeds with ⟨access, _, accessRead, afterAccess⟩
  rcases bind_eq_ok_iff.1 afterAccess with ⟨name, _, nameRead, afterName⟩
  rcases bind_eq_ok_iff.1 afterName with ⟨_, _, named, afterText⟩
  rcases eq_ok_of_ofExcept named with ⟨_, rfl⟩
  rcases bind_eq_ok_iff.1 afterText with ⟨descriptor, _, descriptorRead, afterDescriptor⟩
  rcases bind_eq_ok_iff.1 afterDescriptor with ⟨_, _, described, afterBoth⟩
  rcases eq_ok_of_ofExcept described with ⟨_, rfl⟩
  rcases Counted.exists_of_read (fun _ _ => Attribute.exists_entries_of_fold) afterBoth with
    ⟨attributes, listed⟩
  refine ⟨⟨access, name, descriptor, attributes⟩, ?_⟩
  simp only [rest_of_word accessRead, rest_of_word nameRead, rest_of_word descriptorRead, listed,
    encode, List.append_assoc]

/-- A field is read over. -/
def skipField : Reader Unit := do
  let _ ← Reader.take .field 6
  Attribute.skipList

theorem reads_skipField (member : Member) : skipField.Reads member.encode () := by
  have header : (Bytes.ofUInt16 member.access ++ (Bytes.ofUInt16 member.name ++
      Bytes.ofUInt16 member.descriptor)).length = 6 := rfl
  have reads : skipField.Reads (_ ++ _) () :=
    (reads_take_of_length header).bind (Attribute.reads_skipList member.attributes)
  rwa [List.append_assoc, List.append_assoc] at reads

theorem exists_of_skipField {cursor last : Cursor} {value : Unit}
    (succeeds : skipField cursor = .ok (value, last)) :
    ∃ member : Member, cursor.rest = member.encode ++ last.rest := by
  rcases bind_eq_ok_iff.1 succeeds with ⟨header, _, taken, skipped⟩
  rcases rest_of_take taken with ⟨split, six⟩
  rcases Attribute.exists_of_skipList skipped with ⟨attributes, behind⟩
  refine ⟨⟨Bytes.toUInt16 (header.take 2), Bytes.toUInt16 ((header.drop 2).take 2),
    Bytes.toUInt16 ((header.drop 2).drop 2), attributes⟩, ?_⟩
  have words : header = header.take 2 ++ ((header.drop 2).take 2 ++ (header.drop 2).drop 2) := by
    rw [List.take_append_drop, List.take_append_drop]
  rw [split, behind, encode, Bytes.ofUInt16_toUInt16 (by simp [six]),
    Bytes.ofUInt16_toUInt16 (by simp [six]), Bytes.ofUInt16_toUInt16 (by simp [six])]
  conv => lhs; rw [words]
  simp only [List.append_assoc]

end Member

/-! ## The whole file -/

/-- What a class file holds behind its constant pool. -/
structure SectionsLayout where
  access : UInt16
  name : UInt16
  superName : UInt16
  interfaces : Counted UInt16
  fields : Counted Member
  methods : Counted Member
  attributes : Counted RawAttribute

namespace SectionsLayout

/-- The bytes behind the constant pool. -/
def encode (layout : SectionsLayout) : Bytes :=
  Bytes.ofUInt16 layout.access ++ (Bytes.ofUInt16 layout.name ++
    (Bytes.ofUInt16 layout.superName ++ (layout.interfaces.encode Bytes.ofUInt16 ++
      (layout.fields.encode Member.encode ++ (layout.methods.encode Member.encode ++
        layout.attributes.encode RawAttribute.encode)))))

/-- Up to faults, the super class that is read. -/
def superName? (pool : Pool) (index : UInt16) : Option (Option String) :=
  if index = 0 then some none else (pool.className index).toOption.map some

/-- Up to faults, the sections that are read. -/
def sections? (pool : Pool) (layout : SectionsLayout) : Option Sections := do
  let name ← (pool.className layout.name).toOption
  let superName ← superName? pool layout.superName
  let interfaces ← layout.interfaces.entries.mapM fun index => (pool.className index).toOption
  let methods ← layout.methods.entries.mapM (Member.method? pool)
  ((ClassUnit.level pool).run pool layout.attributes.entries ⟨none, []⟩).map
    (.mk ⟨layout.access⟩ name superName interfaces methods)

theorem gives_readSuper (pool : Pool) (index : UInt16) :
    (ClassUnit.readSuper pool).Gives (Bytes.ofUInt16 index) (superName? pool index) := by
  have given : (if index == 0 then pure none
      else Reader.ofExcept (pool.className index) >>= fun name => pure (some name) :
        Reader (Option String)).Gives [] (superName? pool index) := by
    unfold superName?
    by_cases none : index = 0
    · simpa [none] using gives_some_iff.2 (reads_pure _)
    · simpa [none] using (gives_ofExcept (pool.className index)).bind_pure some
  have both : (ClassUnit.readSuper pool).Gives (_ ++ []) _ :=
    (reads_word .classHeader index).bind_gives given
  rwa [List.append_nil] at both

theorem gives_readInterfaces (pool : Pool) (list : Counted UInt16) :
    (ClassUnit.readInterfaces pool).Gives (list.encode Bytes.ofUInt16)
      (list.entries.mapM fun index => (pool.className index).toOption) := by
  refine list.gives fun count counted => ?_
  rw [counted]
  refine gives_times (fun index => ?_) list.entries
  exact (reads_word _ index).bind_ofExcept pool.className

theorem skipFields_eq : ClassUnit.skipFields = word .fields >>= fun count =>
    times count.toNat Member.skipField >>= fun _ => pure () :=
  rfl

theorem reads_skipFields (list : Counted Member) :
    ClassUnit.skipFields.Reads (list.encode Member.encode) () := by
  rw [skipFields_eq]
  refine gives_some_iff.1 (list.gives fun count counted => gives_some_iff.2 ?_)
  rw [counted]
  exact (reads_times_of_forall Member.reads_skipField list.entries).bind_pure fun _ => ()

theorem gives_readMethods (pool : Pool) (list : Counted Member) :
    (ClassUnit.readMethods pool).Gives (list.encode Member.encode)
      (list.entries.mapM (Member.method? pool)) := by
  refine list.gives fun count counted => ?_
  rw [counted]
  exact gives_times (Member.gives_readMethod pool) list.entries

theorem gives_readAttributes (pool : Pool) (list : Counted RawAttribute) :
    (ClassUnit.readAttributes pool).Gives (list.encode RawAttribute.encode)
      ((ClassUnit.level pool).run pool list.entries ⟨none, []⟩) := by
  refine list.gives fun count counted => ?_
  rw [counted, ClassUnit.extend_eq_act]
  exact (ClassUnit.level pool).gives_fold list.entries _

theorem gives_read (pool : Pool) (layout : SectionsLayout) :
    (Sections.read pool).Gives layout.encode (layout.sections? pool) := by
  unfold Sections.read encode sections?
  refine (reads_word _ _).bind_gives ((reads_word _ _).bind_gives ?_)
  refine (gives_ofExcept _).bind fun name => (gives_readSuper _ _).bind fun superName => ?_
  refine (gives_readInterfaces _ _).bind fun interfaces => (reads_skipFields _).bind_gives ?_
  refine (gives_readMethods _ _).bind fun methods => ?_
  exact (gives_readAttributes _ _).bind_pure _

theorem exists_of_readSuper {pool : Pool} {cursor last : Cursor} {name : Option String}
    (succeeds : ClassUnit.readSuper pool cursor = .ok (name, last)) :
    ∃ index, cursor.rest = Bytes.ofUInt16 index ++ last.rest := by
  rcases bind_eq_ok_iff.1 succeeds with ⟨index, later, indexRead, named⟩
  have same : last = later := by
    split at named
    · cases named
      rfl
    · rcases bind_eq_ok_iff.1 named with ⟨_, _, found, finished⟩
      rcases eq_ok_of_ofExcept found with ⟨_, rfl⟩
      cases finished
      rfl
  exact ⟨index, same ▸ rest_of_word indexRead⟩

theorem exists_of_readInterfaces {pool : Pool} {cursor last : Cursor} {names : List String}
    (succeeds : ClassUnit.readInterfaces pool cursor = .ok (names, last)) :
    ∃ list : Counted UInt16, cursor.rest = list.encode Bytes.ofUInt16 ++ last.rest := by
  refine Counted.exists_of_read (fun _ _ => exists_items_of_times ?_) succeeds
  intro cursor name last named
  rcases bind_eq_ok_iff.1 named with ⟨index, _, indexRead, found⟩
  rcases eq_ok_of_ofExcept found with ⟨_, rfl⟩
  exact ⟨index, rest_of_word indexRead⟩

theorem exists_of_skipFields {cursor last : Cursor} {value : Unit}
    (succeeds : ClassUnit.skipFields cursor = .ok (value, last)) :
    ∃ list : Counted Member, cursor.rest = list.encode Member.encode ++ last.rest := by
  rw [skipFields_eq] at succeeds
  refine Counted.exists_of_read (fun count cursor skipped => ?_) succeeds
  rcases bind_eq_ok_iff.1 skipped with ⟨_, _, members, finished⟩
  cases finished
  exact exists_items_of_times (fun _ _ _ => Member.exists_of_skipField) members

theorem exists_of_read {pool : Pool} {cursor last : Cursor} {sections : Sections}
    (succeeds : Sections.read pool cursor = .ok (sections, last)) :
    ∃ layout : SectionsLayout, cursor.rest = layout.encode ++ last.rest := by
  rcases bind_eq_ok_iff.1 succeeds with ⟨access, _, accessRead, afterAccess⟩
  rcases bind_eq_ok_iff.1 afterAccess with ⟨name, _, nameRead, afterName⟩
  rcases bind_eq_ok_iff.1 afterName with ⟨_, _, named, afterText⟩
  rcases eq_ok_of_ofExcept named with ⟨_, rfl⟩
  rcases bind_eq_ok_iff.1 afterText with ⟨_, _, superRead, afterSuper⟩
  rcases bind_eq_ok_iff.1 afterSuper with ⟨_, _, interfacesRead, afterInterfaces⟩
  rcases bind_eq_ok_iff.1 afterInterfaces with ⟨_, _, fieldsRead, afterFields⟩
  rcases bind_eq_ok_iff.1 afterFields with ⟨_, _, methodsRead, afterMethods⟩
  rcases bind_eq_ok_iff.1 afterMethods with ⟨_, _, attributesRead, finished⟩
  cases finished
  rcases exists_of_readSuper superRead with ⟨superName, superGiven⟩
  rcases exists_of_readInterfaces interfacesRead with ⟨interfaces, interfacesGiven⟩
  rcases exists_of_skipFields fieldsRead with ⟨fields, fieldsGiven⟩
  rcases Counted.exists_of_read (fun _ _ => exists_items_of_times fun _ _ _ =>
    Member.exists_of_readMethod) methodsRead with ⟨methods, methodsGiven⟩
  rcases Counted.exists_of_read (fun _ _ => Attribute.exists_entries_of_fold) attributesRead with
    ⟨attributes, attributesGiven⟩
  refine ⟨⟨access, name, superName, interfaces, fields, methods, attributes⟩, ?_⟩
  simp only [rest_of_word accessRead, rest_of_word nameRead, superGiven, interfacesGiven,
    fieldsGiven, methodsGiven, attributesGiven, encode, List.append_assoc]

end SectionsLayout

/-- A class file. -/
structure FileLayout extends SectionsLayout where
  minorVersion : UInt16
  majorVersion : UInt16
  /-- The bytes of the constant pool. -/
  poolBytes : Bytes
  pool : Pool
  oldest : oldestVersion ≤ majorVersion
  newest : majorVersion ≤ newestVersion
  readsPool : Pool.read.Reads poolBytes pool

namespace FileLayout

/-- The bytes of a class file. -/
def encode (file : FileLayout) : Bytes :=
  Bytes.ofUInt32 signature ++
    (Bytes.ofUInt16 file.minorVersion ++ Bytes.ofUInt16 file.majorVersion) ++
      (file.poolBytes ++ file.toSectionsLayout.encode)

/-- Up to faults, the parts that are read. -/
def parts? (file : FileLayout) : Option FileParts :=
  (file.sections? file.pool).map (.mk file.minorVersion file.majorVersion file.pool)

theorem gives_read (file : FileLayout) : FileParts.read.Gives file.encode file.parts? := by
  refine (ClassUnit.reads_version file.minorVersion file.oldest file.newest).bind_gives ?_
  exact file.readsPool.bind_gives ((SectionsLayout.gives_read _ _).bind_pure _)

/-- What the bytes of a layout open as can be told from its parts. -/
theorem ofBytes_encode_eq_ok_iff {file : FileLayout} {unit : ClassUnit} :
    ClassUnit.ofBytes file.encode = .ok unit ↔
      ∃ parts, file.parts? = some parts ∧ parts.resolve = .ok unit := by
  have read := file.gives_read 0 []
  rw [List.append_nil] at read
  rw [ClassUnit.ofBytes_eq_ok_iff]
  constructor
  · rintro ⟨parts, last, succeeds, resolved⟩
    rw [succeeds] at read
    rcases Option.map_eq_some_iff.1 read.symm with ⟨_, given, same⟩
    obtain rfl := congrArg Prod.fst same
    exact ⟨_, given, resolved⟩
  · rintro ⟨parts, given, resolved⟩
    rw [given] at read
    exact ⟨parts, _, Outcome.toOption_eq_some_iff.1 read, resolved⟩

theorem exists_of_readVersion {cursor last : Cursor} {minor major : UInt16}
    (succeeds : ClassUnit.readVersion cursor = .ok ((minor, major), last)) :
    oldestVersion ≤ major ∧ major ≤ newestVersion ∧
      cursor.rest = Bytes.ofUInt32 signature ++
        (Bytes.ofUInt16 minor ++ Bytes.ofUInt16 major) ++ last.rest := by
  rcases bind_eq_ok_iff.1 succeeds with ⟨magic, _, signed, afterMagic⟩
  rcases ok_of_guard afterMagic with ⟨accepted, afterGuard⟩
  rcases bind_eq_ok_iff.1 afterGuard with ⟨_, _, minorRead, afterMinor⟩
  rcases bind_eq_ok_iff.1 afterMinor with ⟨_, _, majorRead, checked⟩
  rcases ok_of_guard checked with ⟨supported, finished⟩
  cases finished
  obtain rfl : magic = signature := by simpa using accepted
  simp only [Bool.or_eq_true, decide_eq_true_eq, not_or, UInt16.not_lt] at supported
  refine ⟨supported.1, supported.2, ?_⟩
  simp only [rest_of_doubleWord signed, rest_of_word minorRead, rest_of_word majorRead,
    List.append_assoc]

/-- Every class file that opens is laid out in this way. -/
theorem exists_encode_eq {bytes : Bytes} {unit : ClassUnit}
    (opened : ClassUnit.ofBytes bytes = .ok unit) : ∃ file : FileLayout, file.encode = bytes := by
  rcases ClassUnit.ofBytes_eq_ok_iff.1 opened with ⟨parts, last, read, _⟩
  rcases bind_eq_ok_iff.1 read with ⟨version, _, versionRead, afterVersion⟩
  rcases bind_eq_ok_iff.1 afterVersion with ⟨pool, _, poolRead, afterPool⟩
  rcases bind_eq_ok_iff.1 afterPool with ⟨sections, _, sectionsRead, finished⟩
  cases finished
  rcases exists_of_readVersion versionRead with ⟨oldest, newest, versionGiven⟩
  rcases Pool.relocatable_read poolRead with ⟨poolBytes, poolGiven, readsPool⟩
  rcases SectionsLayout.exists_of_read sectionsRead with ⟨layout, sectionsGiven⟩
  refine ⟨⟨layout, version.1, version.2, poolBytes, pool, oldest, newest, readsPool⟩, ?_⟩
  change bytes = _ at versionGiven
  rw [versionGiven, poolGiven, sectionsGiven, List.append_nil]
  rfl

end FileLayout

end ApiCoverage.ClassFile
