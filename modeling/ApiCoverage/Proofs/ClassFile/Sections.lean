import ApiCoverage.Proofs.ClassFile.Reading
import ApiCoverage.Proofs.Outcome

/-!
# Opening as reading parts

A class file is opened by reading its parts in file order. When they are read, two things can still
go wrong: bytes may follow them, and the pool may not resolve. Statements about where reading stops
concern the parts alone.
-/

namespace ApiCoverage.ClassFile

/-- What a class file holds after its constant pool. -/
structure Sections where
  access : Access
  name : String
  superName : Option String
  interfaces : List String
  methods : List MethodDecl
  attributes : ClassUnit.Attributes

namespace Sections

/-- Reads what follows the constant pool. -/
def read (pool : Pool) : Reader Sections := do
  let access ← Reader.word .classHeader
  let name ← Reader.ofExcept (pool.className (← Reader.word .classHeader))
  let superName ← ClassUnit.readSuper pool
  let interfaces ← ClassUnit.readInterfaces pool
  ClassUnit.skipFields
  let methods ← ClassUnit.readMethods pool
  let attributes ← ClassUnit.readAttributes pool
  return ⟨⟨access⟩, name, superName, interfaces, methods, attributes⟩

end Sections

/-- The parts of a class file. -/
structure FileParts where
  minorVersion : UInt16
  majorVersion : UInt16
  pool : Pool
  sections : Sections

namespace FileParts

/-- Reads the parts in file order. -/
def read : Reader FileParts := do
  let version ← ClassUnit.readVersion
  let pool ← Pool.read
  let sections ← Sections.read pool
  return ⟨version.1, version.2, pool, sections⟩

/-- The class file with given parts, whose pool means given symbols. -/
def toUnit (parts : FileParts) (symbols : List Symbol) : ClassUnit where
  minorVersion := parts.minorVersion
  majorVersion := parts.majorVersion
  access := parts.sections.access
  name := parts.sections.name
  superName := parts.sections.superName
  interfaces := parts.sections.interfaces
  sourceFile := parts.sections.attributes.sourceFile
  annotations := parts.sections.attributes.annotations
  symbols := symbols.toArray
  methods := parts.sections.methods

/-- The class file with given parts, provided that its pool resolves. -/
def resolve (parts : FileParts) : Except Fault ClassUnit :=
  parts.pool.symbols.map parts.toUnit

end FileParts

namespace ClassUnit

/-- After the file signature, the version decides whether reading goes on. -/
theorem readVersion_apply (minor major : UInt16) (offset : Nat) (rest : Bytes) :
    readVersion ⟨offset, (Bytes.ofUInt32 signature ++
        (Bytes.ofUInt16 minor ++ Bytes.ofUInt16 major)) ++ rest⟩ =
      if oldestVersion ≤ major ∧ major ≤ newestVersion then
        .ok ((minor, major), ⟨offset + 8, rest⟩)
      else .error (.unsupportedVersion major minor) := by
  have refused : (decide (major < oldestVersion) || decide (newestVersion < major)) = true ↔
      ¬(oldestVersion ≤ major ∧ major ≤ newestVersion) := by
    simp only [Bool.or_eq_true, decide_eq_true_eq, ← UInt16.not_le]
    tauto
  rw [List.append_assoc, List.append_assoc, readVersion,
    (Reader.reads_doubleWord _ signature).bind_apply]
  change (Reader.word .header >>= _) _ = _
  rw [(Reader.reads_word _ minor).bind_apply, (Reader.reads_word _ major).bind_apply]
  by_cases supported : oldestVersion ≤ major ∧ major ≤ newestVersion
  · simp only [refused, supported, and_self, not_true, if_false, if_true]
    rfl
  · simp only [refused, supported, not_false_eq_true, if_false, if_true]
    rfl

/-- A version that can be read is read behind the file signature. -/
theorem reads_version (minor : UInt16) {major : UInt16} (oldest : oldestVersion ≤ major)
    (newest : major ≤ newestVersion) :
    readVersion.Reads
      (Bytes.ofUInt32 signature ++ (Bytes.ofUInt16 minor ++ Bytes.ofUInt16 major))
      (minor, major) := by
  intro offset rest
  rw [readVersion_apply, if_pos ⟨oldest, newest⟩]
  rfl

theorem read_eq_bind :
    read = FileParts.read >>= fun parts => readEnd >>= fun _ => Reader.ofExcept parts.resolve := by
  have finish : ∀ parts : FileParts, (Reader.ofExcept parts.pool.symbols >>= fun symbols =>
      pure (parts.toUnit symbols)) = Reader.ofExcept parts.resolve := by
    intro parts
    funext cursor
    rw [Reader.bind_apply, FileParts.resolve, Reader.ofExcept, Reader.ofExcept]
    cases parts.pool.symbols <;> rfl
  simp only [← finish, read, FileParts.read, Sections.read, bind_assoc, pure_bind]
  rfl

/-- Opening a class file reads its parts. Then nothing may be left, and the pool must resolve. -/
theorem ofBytes_eq (bytes : Bytes) :
    ofBytes bytes =
      match FileParts.read ⟨0, bytes⟩ with
      | .error fault => .error fault
      | .ok (parts, last) =>
          if last.rest.isEmpty then parts.resolve
          else .error (.trailingBytes last.rest.length) := by
  rw [ofBytes, read_eq_bind, Reader.bind_apply]
  cases FileParts.read ⟨0, bytes⟩ with
  | error fault => rfl
  | ok step =>
      rcases step with ⟨parts, last⟩
      simp only [Reader.bind_apply, readEnd]
      cases last.rest.isEmpty with
      | false => rfl
      | true => cases parts.resolve <;> simp [Reader.ofExcept, Except.map]

/-- A class file opens when its parts are read up to the last byte and its pool resolves. -/
theorem ofBytes_eq_ok_iff {bytes : Bytes} {unit : ClassUnit} :
    ofBytes bytes = .ok unit ↔
      ∃ parts last, FileParts.read ⟨0, bytes⟩ = .ok (parts, ⟨last, []⟩) ∧
        parts.resolve = .ok unit := by
  rw [ofBytes_eq]
  cases FileParts.read ⟨0, bytes⟩ with
  | error fault => simp
  | ok step =>
      rcases step with ⟨parts, last, rest⟩
      cases rest with
      | nil => simp
      | cons byte rest => simp

end ClassUnit

/-! ## The file signature -/

/-- What opens as a class file begins as one. -/
theorem isClassFile_of_ofBytes {bytes : Bytes} {unit : ClassUnit}
    (opened : ClassUnit.ofBytes bytes = .ok unit) : isClassFile bytes = true := by
  rcases Outcome.map_eq_ok_iff.1 opened with ⟨⟨_, last⟩, read, _⟩
  rw [ClassUnit.read] at read
  rcases Reader.bind_eq_ok_iff.1 read with ⟨version, later, versioned, _⟩
  rw [ClassUnit.readVersion] at versioned
  rcases Reader.bind_eq_ok_iff.1 versioned with ⟨magic, next, signed, checked⟩
  have same : magic = signature := by
    by_contra differs
    rw [bne_iff_ne.2 differs] at checked
    cases checked
  have whole : bytes = Bytes.ofUInt32 magic ++ next.rest := Reader.rest_of_doubleWord signed
  rw [isClassFile, List.isPrefixOf_iff_prefix, whole, same]
  exact List.prefix_append _ _

end ApiCoverage.ClassFile
