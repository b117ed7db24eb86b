import ApiCoverage.Proofs.ClassFile.PoolDraft
import ApiCoverage.Proofs.ClassFile.Sections

/-!
# What the slots of a class file mean

The slots of a class file follow from the order of its constants alone: a constant stands behind the
slots that the constants before it take up. A slot means a method when a method reference stands in
it, and then the method that the indexes of the reference lead to, wherever the constants that they
lead to stand. Every other slot, with a constant or without, means nothing to a reader of method
calls.
-/

namespace ApiCoverage.ClassFile

open Outcome (map_eq_ok_iff)

/-- A constant of a list stands in the slot behind those that the constants before it take up. -/
def Stands (constants : List Constant) (slot : Nat) (constant : Constant) : Prop :=
  ∃ before after, constants = before ++ constant :: after ∧ slot = 1 + PoolDraft.widths before

/-- Two indexes lead to a method: one to its class by a text, the other to a text for its name and
one for its descriptor. -/
structure LeadTo (constants : List Constant) (owner member : UInt16) (ref : MemberRef) : Prop where
  owner : ∃ name text, Stands constants owner.toNat (.classReference name) ∧
    Stands constants name.toNat (.utf8 text) ∧ ref.owner = Pool.dottedName text
  member : ∃ name descriptor, Stands constants member.toNat (.nameAndType name descriptor) ∧
    Stands constants name.toNat (.utf8 ref.name) ∧
    Stands constants descriptor.toNat (.utf8 ref.descriptor)

/-- What a slot means. -/
inductive Means (constants : List Constant) (slot : Nat) : Symbol → Prop where
  | method {owner member : UInt16} {ref : MemberRef}
      (stands : Stands constants slot (.methodReference owner member))
      (leads : LeadTo constants owner member ref) : Means constants slot (.method ref)
  | interfaceMethod {owner member : UInt16} {ref : MemberRef}
      (stands : Stands constants slot (.interfaceMethodReference owner member))
      (leads : LeadTo constants owner member ref) : Means constants slot (.interfaceMethod ref)
  | other (method : ∀ owner member, ¬Stands constants slot (.methodReference owner member))
      (interfaceMethod :
        ∀ owner member, ¬Stands constants slot (.interfaceMethodReference owner member)) :
      Means constants slot .other

/-- The method references among some constants all lead to methods. Other references may lead
nowhere. -/
def MethodsLead (constants : List Constant) : Prop :=
  ∀ owner member, (.methodReference owner member ∈ constants ∨
    .interfaceMethodReference owner member ∈ constants) → ∃ ref, LeadTo constants owner member ref

/-- A unit lists as many slots as some constants take up, from 1 on and in order, each with what it
means. The second slot of a wide constant is listed and means nothing. -/
structure Aligned (constants : List Constant) (unit : ClassUnit) : Prop where
  slots : unit.symbolTable.map Prod.fst = List.range' 1 (PoolDraft.widths constants)
  means : ∀ slot symbol, (slot, symbol) ∈ unit.symbolTable ↔
    (1 ≤ slot ∧ slot ≤ PoolDraft.widths constants) ∧ Means constants slot symbol
  second : ∀ before constant after, constants = before ++ constant :: after →
    constant.isWide = true → (2 + PoolDraft.widths before, .other) ∈ unit.symbolTable

/-- A class file of a version: the file signature, the version, the pool with the number of its
slots, and what follows the pool. -/
def fileWithPool (minor major : UInt16) (constants : List Constant) (pieces : List Bytes)
    (rest : Bytes) : Bytes :=
  (Bytes.ofUInt32 signature ++ (Bytes.ofUInt16 minor ++ Bytes.ofUInt16 major)) ++
    ((Drafting.count (1 + PoolDraft.widths constants) ++ pieces.flatten) ++ rest)

/-! ## Slots of the pool -/

namespace PoolDraft

variable {constants : List Constant}

theorem get?_toPool_iff_stands {slot : UInt16} {constant : Constant} :
    (toPool ⟨constants⟩).get? slot = some constant ↔ Stands constants slot.toNat constant := by
  rw [get?_toPool_eq_some_iff, holds_iff, Stands]

theorem getElem?_slots_iff_stands {slot : Nat} {constant : Constant} :
    (toPool ⟨constants⟩).slots[slot]? = some (some constant) ↔ Stands constants slot constant := by
  rw [toPool, List.getElem?_toArray]
  exact holds_iff

theorem length_slots_toPool : (toPool ⟨constants⟩).slots.toList.length = 1 + widths constants := by
  rw [toPool, List.length_cons, length_slotsOf, Nat.add_comm]

/-- Indexes resolve to a method exactly when they lead to it. -/
theorem member_toPool_eq_ok_iff {owner member : UInt16} {ref : MemberRef} :
    (toPool ⟨constants⟩).member owner member = .ok ref ↔ LeadTo constants owner member ref := by
  rw [Pool.member_eq_ok_iff, Pool.className_eq_ok_iff, Pool.nameAndType_eq_ok_iff]
  simp only [get?_toPool_iff_stands]
  exact ⟨fun ⟨owned, named⟩ => ⟨owned, named⟩, fun leads => ⟨leads.owner, leads.member⟩⟩

/-- A slot resolves to what it means, and to nothing else. -/
theorem symbol_toPool_eq_ok_iff {slot : Nat} {entry : Option Constant} {symbol : Symbol}
    (stands : (toPool ⟨constants⟩).slots[slot]? = some entry) :
    (toPool ⟨constants⟩).symbol entry = .ok symbol ↔ Means constants slot symbol := by
  have entry_eq_iff {constant : Constant} :
      Stands constants slot constant ↔ entry = some constant := by
    rw [← getElem?_slots_iff_stands, stands, Option.some.injEq]
  constructor
  · intro resolved
    unfold Pool.symbol at resolved
    split at resolved
    · rcases map_eq_ok_iff.1 resolved with ⟨ref, found, rfl⟩
      exact .method (entry_eq_iff.2 rfl) (member_toPool_eq_ok_iff.1 found)
    · rcases map_eq_ok_iff.1 resolved with ⟨ref, found, rfl⟩
      exact .interfaceMethod (entry_eq_iff.2 rfl) (member_toPool_eq_ok_iff.1 found)
    · next method interfaceMethod =>
        cases resolved
        constructor
        · intro owner member stands
          exact method owner member (entry_eq_iff.1 stands)
        · intro owner member stands
          exact interfaceMethod owner member (entry_eq_iff.1 stands)
  · intro means
    cases means with
    | method stands leads =>
        rw [entry_eq_iff.1 stands]
        exact map_eq_ok_iff.2 ⟨_, member_toPool_eq_ok_iff.2 leads, rfl⟩
    | interfaceMethod stands leads =>
        rw [entry_eq_iff.1 stands]
        exact map_eq_ok_iff.2 ⟨_, member_toPool_eq_ok_iff.2 leads, rfl⟩
    | other method interfaceMethod =>
        simp only [entry_eq_iff] at method interfaceMethod
        rw [Pool.symbol]
        · exact method
        · exact interfaceMethod

/-- The pool resolves when every method reference leads somewhere. -/
theorem exists_symbols_toPool_iff :
    (∃ symbols, (toPool ⟨constants⟩).symbols = .ok symbols) ↔ MethodsLead constants := by
  rw [Pool.exists_symbols_iff]
  constructor
  · intro resolves owner member present
    rcases present with present | present
    all_goals
      rcases resolves _ (mem_slots_toPool.2 present) with ⟨symbol, resolved⟩
      rcases map_eq_ok_iff.1 resolved with ⟨ref, found, _⟩
      exact ⟨ref, member_toPool_eq_ok_iff.1 found⟩
  · intro leads entry present
    cases entry with
    | none => exact ⟨.other, rfl⟩
    | some constant =>
        rw [mem_slots_toPool] at present
        cases constant with
        | methodReference owner member =>
            rcases leads owner member (.inl present) with ⟨ref, leads⟩
            exact ⟨.method ref, map_eq_ok_iff.2 ⟨ref, member_toPool_eq_ok_iff.2 leads, rfl⟩⟩
        | interfaceMethodReference owner member =>
            rcases leads owner member (.inr present) with ⟨ref, leads⟩
            exact ⟨.interfaceMethod ref,
              map_eq_ok_iff.2 ⟨ref, member_toPool_eq_ok_iff.2 leads, rfl⟩⟩
        | _ => exact ⟨.other, rfl⟩

/-- The second slot of a wide constant holds nothing. -/
theorem getElem?_slots_of_wide (before after : List Constant) {constant : Constant}
    (wide : constant.isWide = true) :
    (toPool ⟨before ++ constant :: after⟩).slots[2 + widths before]? = some none := by
  have behind : 2 + widths before = (slotsOf before).length + 1 + 1 := by
    rw [length_slotsOf]
    omega
  rw [toPool, List.getElem?_toArray, behind, List.getElem?_cons_succ, slotsOf, List.flatMap_append,
    List.flatMap_cons, ← slotsOf, List.getElem?_append_right (Nat.le_succ _)]
  simp [Constant.slots, wide]

end PoolDraft

/-! ## The symbols of a unit -/

namespace ClassUnit

theorem map_fst_symbolTable (unit : ClassUnit) :
    unit.symbolTable.map Prod.fst = List.range' 1 (unit.symbols.size - 1) := by
  rw [symbolTable, List.map_drop, List.map_map]
  change (unit.symbols.toList.zipIdx.map Prod.snd).drop 1 = _
  rw [List.zipIdx_map_snd, List.drop_range', Array.length_toList]

theorem mem_symbolTable_iff {unit : ClassUnit} {slot : Nat} {symbol : Symbol} :
    (slot, symbol) ∈ unit.symbolTable ↔ 1 ≤ slot ∧ unit.symbols[slot]? = some symbol := by
  simp only [symbolTable, List.mem_iff_getElem?, List.getElem?_drop, List.getElem?_map,
    List.getElem?_zipIdx, Array.getElem?_toList, Option.map_map, Option.map_eq_some_iff,
    Function.comp_apply, Nat.zero_add, Prod.mk.injEq]
  constructor
  · rintro ⟨index, _, stands, rfl, rfl⟩
    exact ⟨Nat.le_add_right 1 index, stands⟩
  · rintro ⟨positive, stands⟩
    have place : 1 + (slot - 1) = slot := Nat.add_sub_cancel' positive
    exact ⟨slot - 1, symbol, place.symm ▸ stands, place, rfl⟩

/-- A file opens when its version can be read, what follows its pool ends it, and its pool
resolves. -/
theorem ofBytes_fileWithPool_eq_ok_iff {minor major : UInt16} {constants : List Constant}
    {pieces : List Bytes} {rest : Bytes} {unit : ClassUnit}
    (written : List.Forall₂ Constant.Written constants pieces)
    (few : 1 + PoolDraft.widths constants ≤ 65535) :
    ofBytes (fileWithPool minor major constants pieces rest) = .ok unit ↔
      (oldestVersion ≤ major ∧ major ≤ newestVersion) ∧
        ∃ sections last symbols,
          Sections.read (PoolDraft.toPool ⟨constants⟩) ⟨10 + pieces.flatten.length, rest⟩ =
            .ok (sections, ⟨last, []⟩) ∧
          (PoolDraft.toPool ⟨constants⟩).symbols = .ok symbols ∧
          unit = FileParts.toUnit
            ⟨minor, major, PoolDraft.toPool ⟨constants⟩, sections⟩ symbols := by
  rw [ofBytes_eq_ok_iff, fileWithPool, FileParts.read]
  by_cases supported : oldestVersion ≤ major ∧ major ≤ newestVersion
  · have place :
        0 + (Bytes.ofUInt32 signature ++ (Bytes.ofUInt16 minor ++ Bytes.ofUInt16 major)).length +
          (Drafting.count (1 + PoolDraft.widths constants) ++ pieces.flatten).length =
            10 + pieces.flatten.length := by
      simp only [List.length_append, Drafting.count, Bytes.length_ofUInt16, Bytes.length_ofUInt32]
      omega
    rw [(reads_version minor supported.1 supported.2).bind_apply,
      (PoolDraft.reads_of_written written few).bind_apply, place]
    constructor
    · rintro ⟨parts, last, read, resolved⟩
      rcases Reader.bind_eq_ok_iff.1 read with ⟨sections, later, read, gathered⟩
      cases gathered
      rcases map_eq_ok_iff.1 resolved with ⟨symbols, followed, rfl⟩
      exact ⟨supported, sections, last, symbols, read, followed, rfl⟩
    · rintro ⟨_, sections, last, symbols, read, resolved, rfl⟩
      refine ⟨_, last, Reader.bind_eq_ok_iff.2 ⟨sections, _, read, rfl⟩, ?_⟩
      exact map_eq_ok_iff.2 ⟨symbols, resolved, rfl⟩
  · rw [Reader.bind_apply, readVersion_apply, if_neg supported]
    simp [supported]

/-- The symbol of a slot of an opened file is what the slot means. -/
theorem mem_symbolTable_toUnit_iff {parts : FileParts} {constants : List Constant}
    {symbols : List Symbol} {slot : Nat} {symbol : Symbol}
    (resolved : (PoolDraft.toPool ⟨constants⟩).symbols = .ok symbols) :
    (slot, symbol) ∈ (parts.toUnit symbols).symbolTable ↔
      (1 ≤ slot ∧ slot ≤ PoolDraft.widths constants) ∧ Means constants slot symbol := by
  have members := Pool.symbols_eq_ok_iff.1 resolved
  rw [mem_symbolTable_iff, FileParts.toUnit, List.getElem?_toArray,
    Pool.getElem?_eq_of_resolved members, Array.getElem?_toList, and_assoc]
  apply and_congr_right
  intro _
  cases stands : (PoolDraft.toPool ⟨constants⟩).slots[slot]? with
  | none =>
      have beyond : 1 + PoolDraft.widths constants ≤ slot := by
        rw [← PoolDraft.length_slots_toPool, Array.length_toList]
        exact Array.getElem?_eq_none_iff.1 stands
      have outside : ¬slot ≤ PoolDraft.widths constants := by omega
      simp [outside]
  | some entry =>
      have inside : slot < 1 + PoolDraft.widths constants := by
        rw [← PoolDraft.length_slots_toPool, Array.length_toList]
        exact (Array.getElem?_eq_some_iff.1 stands).1
      have last : slot ≤ PoolDraft.widths constants := by omega
      rw [← PoolDraft.symbol_toPool_eq_ok_iff stands, Option.bind_some]
      cases (PoolDraft.toPool ⟨constants⟩).symbol entry <;> simp [Except.toOption, last]

/-- A unit whose pool was read from some constants is aligned with them. -/
theorem aligned_toUnit {parts : FileParts} {constants : List Constant} {symbols : List Symbol}
    (resolved : (PoolDraft.toPool ⟨constants⟩).symbols = .ok symbols) :
    Aligned constants (parts.toUnit symbols) := by
  constructor
  · have length_eq := (Pool.symbols_eq_ok_iff.1 resolved).length_eq
    rw [PoolDraft.length_slots_toPool] at length_eq
    rw [map_fst_symbolTable, FileParts.toUnit, List.size_toArray, ← length_eq,
      Nat.add_sub_cancel_left]
  · intro slot symbol
    exact mem_symbolTable_toUnit_iff resolved
  · rintro before constant after rfl wide
    have counted : PoolDraft.widths (before ++ constant :: after) =
        PoolDraft.widths before + (2 + PoolDraft.widths after) := by
      simp [PoolDraft.widths, Constant.width, wide]
    have holds := PoolDraft.getElem?_slots_of_wide before after wide
    have means := (PoolDraft.symbol_toPool_eq_ok_iff holds).1 rfl
    exact (mem_symbolTable_toUnit_iff resolved).2 ⟨by omega, means⟩

/-- The slots of a class file are aligned with its constants, whatever these are and in whatever order
they stand. The file opens, given that its version can be read and that what follows the pool ends
it, exactly when all method references lead to methods. -/
theorem aligned_ofBytes {minor major : UInt16} {constants : List Constant} {pieces : List Bytes}
    {rest : Bytes} (written : List.Forall₂ Constant.Written constants pieces)
    (few : 1 + PoolDraft.widths constants ≤ 65535) :
    (∀ unit, ofBytes (fileWithPool minor major constants pieces rest) = .ok unit →
      Aligned constants unit) ∧
    ((∃ unit, ofBytes (fileWithPool minor major constants pieces rest) = .ok unit) ↔
      (oldestVersion ≤ major ∧ major ≤ newestVersion) ∧
        (∃ sections last,
          Sections.read (PoolDraft.toPool ⟨constants⟩) ⟨10 + pieces.flatten.length, rest⟩ =
            .ok (sections, ⟨last, []⟩)) ∧
        MethodsLead constants) := by
  simp only [ofBytes_fileWithPool_eq_ok_iff written few]
  constructor
  · rintro _ ⟨_, sections, last, symbols, _, resolved, rfl⟩
    exact aligned_toUnit resolved
  · rw [← PoolDraft.exists_symbols_toPool_iff]
    constructor
    · rintro ⟨_, supported, sections, last, symbols, read, resolved, _⟩
      exact ⟨supported, ⟨sections, last, read⟩, symbols, resolved⟩
    · rintro ⟨supported, ⟨sections, last, read⟩, symbols, resolved⟩
      exact ⟨_, supported, sections, last, symbols, read, resolved, rfl⟩

/-- Constants that lead forward, two of them wide and one a field reference that leads nowhere. -/
def mixedConstants : List Constant :=
  [.methodReference 4 5, .long 7, .classReference 6, .nameAndType 7 8, .utf8 "a/B", .utf8 "m",
    .utf8 "()V", .fieldReference 99 2, .utf8 "\x00", .double 0]

/-- The constants in bytes, with two bytes for the character NUL. -/
def mixedPieces : List Bytes :=
  mixedConstants.map fun constant =>
    if constant = .utf8 "\x00" then [1, 0, 2, 0xC0, 0x80] else constant.encode

/-- What follows the pool of a public class that is named in slot 4 and has nothing else. -/
def bareRest : Bytes :=
  [0, 1, 0, 4, 0, 0, 0, 0, 0, 0, 0, 0, 0, 0]

theorem aligned_ofBytes_mixedConstants :
    List.Forall₂ Constant.Written mixedConstants mixedPieces ∧
      1 + PoolDraft.widths mixedConstants ≤ 65535 ∧
      ∃ unit, ofBytes (fileWithPool 0 61 mixedConstants mixedPieces bareRest) = .ok unit ∧
        unit.symbolTable.map Prod.fst = List.range' 1 12 ∧
        (1, .method ⟨"a.B", "m", "()V"⟩) ∈ unit.symbolTable ∧
        (3, .other) ∈ unit.symbolTable ∧ (9, .other) ∈ unit.symbolTable := by
  have written : List.Forall₂ Constant.Written mixedConstants mixedPieces := by
    rw [mixedPieces, List.forall₂_map_right_iff, List.forall₂_same]
    intro constant member
    have short : ∀ constant ∈ mixedConstants, constant.IsShort := by decide +kernel
    split
    · next nul =>
        have spelled : Text.ModifiedUtf8.decode? [0xC0, 0x80] = some "\x00" := by decide +kernel
        rw [nul]
        exact .text (by decide) spelled
    · exact Constant.written_encode (short constant member)
  have few : 1 + PoolDraft.widths mixedConstants ≤ 65535 := by decide
  have opens : (ofBytes (fileWithPool 0 61 mixedConstants mixedPieces bareRest)).isOk = true := by
    decide +kernel
  have first : (PoolDraft.toPool ⟨mixedConstants⟩).slots[1]? =
      some (some (.methodReference 4 5)) := rfl
  have ninth : (PoolDraft.toPool ⟨mixedConstants⟩).slots[9]? =
      some (some (.fieldReference 99 2)) := rfl
  have method : Means mixedConstants 1 (.method ⟨"a.B", "m", "()V"⟩) :=
    (PoolDraft.symbol_toPool_eq_ok_iff first).1 (by decide +kernel)
  have field : Means mixedConstants 9 .other := (PoolDraft.symbol_toPool_eq_ok_iff ninth).1 rfl
  rcases Outcome.exists_of_isOk opens with ⟨unit, opened⟩
  rcases (aligned_ofBytes written few).1 unit opened with ⟨listed, means, second⟩
  refine ⟨written, few, unit, opened, listed, ?_, ?_, ?_⟩
  · exact (means _ _).2 ⟨by decide, method⟩
  · exact second [.methodReference 4 5] (.long 7) _ rfl rfl
  · exact (means _ _).2 ⟨by decide, field⟩

end ClassUnit

end ApiCoverage.ClassFile
