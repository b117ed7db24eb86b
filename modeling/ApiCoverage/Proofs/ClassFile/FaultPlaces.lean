import ApiCoverage.ClassFile.Assembly
import ApiCoverage.Proofs.ClassFile.Levels
import ApiCoverage.Proofs.ClassFile.Positions

/-!
# Faults point into the file

Positions in faults count from the start of the file, also where a fault stems from the body of an
attribute inside the body of another one. The main statement says that every fault fits the bytes of
the file at the place that it names, and that reading never leaves the file.
-/

namespace ApiCoverage.ClassFile

open Reader

/-- The number of constant pool slots that a file declares behind its signature and version. -/
def declaredSlots (file : Bytes) : Nat :=
  (Bytes.toUInt16 ((file.drop 8).take 2)).toNat

/-- The characters that announce element values. -/
def elementTags : List Char :=
  ['B', 'C', 'D', 'F', 'I', 'J', 'S', 'Z', 's', 'c', 'e', '@', '[']

/-- A fault fits the bytes of a file at the place that it names. -/
def Fault.PointsInto (file : Bytes) : Fault → Prop
  | invalidMagic found => found = Bytes.toUInt32 (file.take 4) ∧ found ≠ signature
  | unsupportedVersion major minor =>
      minor = Bytes.toUInt16 ((file.drop 4).take 2) ∧
        major = Bytes.toUInt16 ((file.drop 6).take 2) ∧
        ¬(oldestVersion ≤ major ∧ major ≤ newestVersion)
  | truncated _ offset expected available =>
      available < expected ∧ offset + available ≤ file.length
  | unknownConstantTag slot _ => 1 ≤ slot ∧ slot < declaredSlots file
  -- An index that leads nowhere stands in the pool and names no place.
  | badConstantIndex _ _ => True
  | invalidUtf8 slot => 1 ≤ slot ∧ slot < declaredSlots file
  | invalidOpcode _ _ => False
  | malformed .elementValueTag offset =>
      ∃ tag, file[offset]? = some tag ∧ Char.ofNat tag.toNat ∉ elementTags
  | malformed .annotationNesting offset => offset ≤ file.length
  | malformed _ _ => False
  | trailingBytes count => 0 < count ∧ count < file.length

namespace Reader

variable {α β : Type} {file : Bytes}

/-- A reader is made of primitive steps, and in any window of a file its faults point into the file. -/
structure Placed (file : Bytes) (reader : Reader α) : Prop where
  stepwise : reader.Stepwise
  points : ∀ window : Window, window.Inside file →
    ∀ fault, reader (window.cursor file) = .error fault → fault.PointsInto file

theorem placed_pure (value : α) : (pure value : Reader α).Placed file :=
  ⟨⟨.done value⟩, nofun⟩

theorem placed_fail {fault : Fault} (points : fault.PointsInto file) :
    (fail fault : Reader α).Placed file := by
  refine ⟨⟨.refuse fault⟩, fun window _ other fails => ?_⟩
  cases fails
  exact points

theorem placed_take (part : Part) (count : Nat) : (take part count).Placed file := by
  refine ⟨⟨.take part count⟩, fun window inside fault fails => ?_⟩
  rw [Steps.take_cursor inside] at fails
  split at fails
  · next short =>
      cases fails
      exact ⟨short, inside.fits (Nat.le_refl _)⟩
  · cases fails

/-- The faults of a sequence are those of its steps, where the second begins in what the first leaves. -/
theorem pointsInto_of_bind {reader : Reader α} {next : α → Reader β} {window : Window}
    (inside : window.Inside file) (stepwise : reader.Stepwise)
    (first : ∀ fault, reader (window.cursor file) = .error fault → fault.PointsInto file)
    (second : ∀ value (left : Window), left.Inside file →
      reader (window.cursor file) = .ok (value, left.cursor file) →
      ∀ fault, next value (left.cursor file) = .error fault → fault.PointsInto file)
    {fault : Fault} (fails : (reader >>= next) (window.cursor file) = .error fault) :
    fault.PointsInto file := by
  rw [bind_apply] at fails
  cases outcome : reader (window.cursor file) with
  | error other =>
      rw [outcome] at fails
      cases fails
      exact first _ outcome
  | ok step =>
      rcases step with ⟨value, later⟩
      rw [outcome] at fails
      rcases stepwise.exists_left inside outcome with ⟨left, rfl, insideLeft, _, _⟩
      exact second value left insideLeft outcome fault fails

theorem Placed.bind {reader : Reader α} {next : α → Reader β} (before : reader.Placed file)
    (after : ∀ value, (next value).Placed file) : (reader >>= next).Placed file :=
  ⟨before.stepwise.bind fun value => (after value).stepwise, fun window inside _ fails =>
    pointsInto_of_bind inside before.stepwise (before.points window inside)
      (fun value left insideLeft _ => (after value).points left insideLeft) fails⟩

theorem error_of_guard {refuses : Prop} [Decidable refuses] {fault other : Fault} {next : Reader α}
    {cursor : Cursor}
    (fails : (if refuses then (fail fault : Reader Unit) >>= fun _ => next else next) cursor =
      .error other) : (refuses ∧ other = fault) ∨ (¬refuses ∧ next cursor = .error other) := by
  split at fails
  · next refused =>
      cases fails
      exact .inl ⟨refused, rfl⟩
  · next passed => exact .inr ⟨passed, fails⟩

theorem placed_ofExcept {outcome : Except Fault α}
    (points : ∀ fault, outcome = .error fault → fault.PointsInto file) :
    (ofExcept outcome).Placed file := by
  cases outcome with
  | error fault => exact placed_fail (points fault rfl)
  | ok value => exact placed_pure value

theorem placed_byte (part : Part) : (byte part).Placed file :=
  (placed_take part 1).bind fun _ => placed_pure _

theorem placed_word (part : Part) : (word part).Placed file :=
  (placed_take part 2).bind fun _ => placed_pure _

theorem placed_doubleWord (part : Part) : (doubleWord part).Placed file :=
  (placed_take part 4).bind fun _ => placed_pure _

theorem Placed.timesOnto {reader : Reader α} (member : reader.Placed file) (done : List α)
    (count : Nat) : (timesOnto reader done count).Placed file := by
  induction count generalizing done with
  | zero => exact placed_pure done.reverse
  | succ count ih =>
      rw [timesOnto_succ]
      exact member.bind fun value => ih (value :: done)

theorem Placed.times {reader : Reader α} (member : reader.Placed file) (count : Nat) :
    (times count reader).Placed file :=
  member.timesOnto [] count

/-- What is taken stands at the position of the window. -/
theorem eq_of_take {window : Window} (inside : window.Inside file) {part : Part} {count : Nat}
    {bytes : Bytes} {later : Cursor}
    (succeeds : take part count (window.cursor file) = .ok (bytes, later)) :
    bytes = (file.drop window.position).take count ∧ (window.skip count).Inside file ∧
      later = (window.skip count).cursor file := by
  rw [Steps.take_cursor inside] at succeeds
  split at succeeds
  · cases succeeds
  · next fits =>
      cases succeeds
      exact ⟨rfl, inside.skip (Nat.le_of_not_lt fits), rfl⟩

/-- What is made of bytes that are taken depends on nothing else. -/
theorem eq_of_take_bind {window : Window} (inside : window.Inside file) {part : Part} {count : Nat}
    {make : Bytes → α} {value : α} {later : Cursor}
    (succeeds : (take part count >>= fun bytes => pure (make bytes)) (window.cursor file) =
      .ok (value, later)) :
    value = make ((file.drop window.position).take count) ∧ (window.skip count).Inside file ∧
      later = (window.skip count).cursor file := by
  rcases bind_eq_ok_iff.1 succeeds with ⟨bytes, next, taken, given⟩
  cases given
  rcases eq_of_take inside taken with ⟨rfl, left, rfl⟩
  exact ⟨rfl, left, rfl⟩

theorem getElem?_of_byte {window : Window} (inside : window.Inside file) {part : Part} {tag : UInt8}
    {later : Cursor} (succeeds : byte part (window.cursor file) = .ok (tag, later)) :
    file[window.position]? = some tag := by
  rcases eq_of_take_bind inside succeeds with ⟨rfl, ⟨ordered, bounded⟩, _⟩
  have here : window.position < file.length := Nat.lt_of_lt_of_le ordered bounded
  rw [List.drop_eq_getElem_cons here, List.getElem?_eq_getElem here]
  rfl

/-- What follows may rely on the byte at its position. -/
theorem placed_byte_at {part : Part} {next : Nat → UInt8 → Reader α}
    (stepwise : (position >>= fun offset => byte part >>= next offset).Stepwise)
    (after : ∀ offset tag, file[offset]? = some tag → (next offset tag).Placed file) :
    (position >>= fun offset => byte part >>= next offset).Placed file := by
  refine ⟨stepwise, fun window inside fault fails => ?_⟩
  rw [position_bind] at fails
  refine pointsInto_of_bind inside (composes_stepwise.byte part)
    ((placed_byte part).points window inside) (fun tag left insideLeft found => ?_) fails
  exact (after _ tag (getElem?_of_byte inside found)).points left insideLeft

theorem Placed.enter {reader : Reader α} (inner : reader.Placed file) (part : Part) (count : Nat) :
    (enter part count reader).Placed file := by
  refine ⟨inner.stepwise.map (.enter part count), fun window inside fault fails => ?_⟩
  rw [Steps.enter_cursor inside] at fails
  split at fails
  · next short =>
      cases fails
      exact ⟨short, inside.fits (Nat.le_refl _)⟩
  · next fits =>
      cases outcome : reader ((window.front count).cursor file) with
      | error other =>
          rw [outcome] at fails
          cases fails
          exact inner.points _ (inside.front (Nat.le_of_not_lt fits)) _ outcome
      | ok step =>
          rw [outcome] at fails
          cases fails

end Reader

/-! ## Lookups in the pool -/

/-- A lookup fails only where an index leads nowhere. -/
def FailsAtIndex {α : Type} (outcome : Except Fault α) : Prop :=
  ∀ fault, outcome = .error fault → ∃ slot expected, fault = .badConstantIndex slot expected

namespace FailsAtIndex

variable {α β : Type} {outcome : Except Fault α}

theorem ok (value : α) : FailsAtIndex (.ok value) :=
  nofun

theorem badIndex (slot : UInt16) (expected : Expected) :
    FailsAtIndex (.error (.badConstantIndex slot expected) : Except Fault α) := by
  intro fault fails
  cases fails
  exact ⟨slot, expected, rfl⟩

theorem bind {next : α → Except Fault β} (before : FailsAtIndex outcome)
    (after : ∀ value, FailsAtIndex (next value)) : FailsAtIndex (outcome >>= next) := by
  intro fault fails
  rcases Outcome.bind_eq_error_iff.1 fails with first | ⟨value, _, second⟩
  · exact before fault first
  · exact after value fault second

theorem map (before : FailsAtIndex outcome) (change : α → β) :
    FailsAtIndex (outcome.map change) := by
  cases outcome with
  | error fault =>
      intro other fails
      cases fails
      exact before fault rfl
  | ok value => exact ok (change value)

theorem placed {file : Bytes} (fails : FailsAtIndex outcome) :
    (Reader.ofExcept outcome).Placed file := by
  refine placed_ofExcept fun fault failed => ?_
  rcases fails fault failed with ⟨slot, expected, rfl⟩
  trivial

end FailsAtIndex

namespace Pool

variable (pool : Pool)

theorem utf8_failsAtIndex (slot : UInt16) : FailsAtIndex (pool.utf8 slot) := by
  unfold utf8
  split
  · exact .ok _
  · exact .badIndex _ _

theorem className_failsAtIndex (slot : UInt16) : FailsAtIndex (pool.className slot) := by
  unfold className
  split
  · exact (pool.utf8_failsAtIndex _).map _
  · exact .badIndex _ _

theorem nameAndType_failsAtIndex (slot : UInt16) : FailsAtIndex (pool.nameAndType slot) := by
  unfold nameAndType
  split
  · exact (pool.utf8_failsAtIndex _).bind fun _ => (pool.utf8_failsAtIndex _).bind fun _ => .ok _
  · exact .badIndex _ _

theorem member_failsAtIndex (owner nameAndType : UInt16) :
    FailsAtIndex (pool.member owner nameAndType) :=
  (pool.nameAndType_failsAtIndex _).bind fun _ => (pool.className_failsAtIndex _).bind fun _ =>
    .ok _

theorem symbol_failsAtIndex (constant : Option Constant) : FailsAtIndex (pool.symbol constant) := by
  unfold symbol
  split
  · exact (pool.member_failsAtIndex _ _).map _
  · exact (pool.member_failsAtIndex _ _).map _
  · exact .ok _

theorem symbolsOnto_failsAtIndex (done : List Symbol) (slots : List (Option Constant)) :
    FailsAtIndex (pool.symbolsOnto done slots) := by
  induction slots generalizing done with
  | nil => exact .ok _
  | cons slot rest ih =>
      have first := pool.symbol_failsAtIndex slot
      rw [symbolsOnto]
      cases outcome : pool.symbol slot with
      | error fault =>
          intro other fails
          cases fails
          exact first fault outcome
      | ok symbol => exact ih (symbol :: done)

theorem placed_utf8 {file : Bytes} (slot : UInt16) :
    (Reader.ofExcept (pool.utf8 slot)).Placed file :=
  (pool.utf8_failsAtIndex slot).placed

theorem placed_className {file : Bytes} (slot : UInt16) :
    (Reader.ofExcept (pool.className slot)).Placed file :=
  (pool.className_failsAtIndex slot).placed

end Pool

open Pool (placed_utf8 placed_className)

/-! ## Annotations -/

namespace AnnotationUse

variable {file : Bytes}

theorem stepwise_skipValue (levels : Nat) : (skipValue levels).Stepwise := by
  induction levels with
  | zero => exact .bind ⟨.locate⟩ fun offset => ⟨.refuse _⟩
  | succ levels ih =>
      have take := composes_stepwise.take
      have word := composes_stepwise.word
      refine .bind ⟨.locate⟩ fun offset => (composes_stepwise.byte _).bind fun tag => ?_
      split
      case h_12 =>
        exact (take _ _).bind fun _ => (word _).bind fun count =>
          (composes_stepwise.times ((take _ _).bind fun _ => ih) _).bind fun _ => ⟨.done _⟩
      case h_13 =>
        exact (word _).bind fun count => (composes_stepwise.times ih _).bind fun _ => ⟨.done _⟩
      case h_14 => exact ⟨.refuse _⟩
      all_goals exact (take _ _).bind fun _ => ⟨.done _⟩

theorem placed_skipValue (levels : Nat) : (skipValue levels).Placed file := by
  induction levels with
  | zero =>
      refine ⟨stepwise_skipValue 0, fun window inside fault fails => ?_⟩
      cases fails
      exact Nat.le_trans inside.ordered inside.bounded
  | succ levels ih =>
      refine placed_byte_at (stepwise_skipValue (levels + 1)) fun offset tag found => ?_
      split
      case h_12 =>
        exact (placed_take _ _).bind fun _ => (placed_word _).bind fun count =>
          (((placed_take _ _).bind fun _ => ih).times _).bind fun _ => placed_pure _
      case h_13 =>
        exact (placed_word _).bind fun count => (ih.times _).bind fun _ => placed_pure _
      case h_14 =>
        -- The cases before are the tags that announce values, so this one is none of them.
        refine placed_fail ⟨tag, found, ?_⟩
        simp_all [elementTags]
      all_goals exact (placed_take _ _).bind fun _ => placed_pure _

theorem placed_readList (pool : Pool) : (readList pool).Placed file :=
  (placed_word _).bind fun _ => .times
    ((placed_word _).bind fun _ => (placed_utf8 pool _).bind fun _ =>
      (placed_word _).bind fun _ => (Placed.times
        ((placed_word _).bind fun _ => (placed_utf8 pool _).bind fun _ =>
          (placed_skipValue _).bind fun _ => placed_pure _) _).bind fun _ =>
        placed_pure _) _

theorem placed_readParameters (pool : Pool) : (readParameters pool).Placed file :=
  (placed_byte _).bind fun _ => (placed_readList pool).times _

end AnnotationUse

theorem LineEntry.placed_readTable {file : Bytes} : readTable.Placed file :=
  (placed_word _).bind fun _ => .times
    ((placed_word _).bind fun _ => (placed_word _).bind fun _ => placed_pure _) _

/-! ## Attributes -/

namespace Attribute

variable {σ : Type} {file : Bytes}

/-- Reads the body of an attribute, which changes the state if its name is recognised. -/
def Level.readBody (level : Level σ) (state : σ) (name : String) (length : Nat) : Reader σ :=
  match level.handler? name with
  | some handler => do
      let value ← enter .attributeBody length handler.reader
      return handler.change value state
  | none => do
      let _ ← take .attributeBody length
      return state

theorem Level.readBody_eq (level : Level σ) (state : σ) (name : String) (length : Nat) :
    level.readBody state name length =
      position >>= fun offset => take .attributeBody length >>= fun body =>
        Reader.ofExcept (level.act state ⟨name, ⟨offset, body⟩⟩) := by
  funext cursor
  rw [position_bind, bind_apply]
  dsimp only [readBody, act]
  cases level.handler? name with
  | none =>
      dsimp only
      rw [bind_apply]
      cases take .attributeBody length cursor <;> rfl
  | some handler =>
      dsimp only
      rw [bind_apply, enter, position_bind, bind_apply]
      cases take .attributeBody length cursor with
      | error fault => rfl
      | ok step =>
          rcases step with ⟨body, later⟩
          simp only [within, parse, Reader.ofExcept]
          cases handler.reader ⟨cursor.offset, body⟩ <;> rfl

theorem fold_level_succ (pool : Pool) (level : Level σ) (count : Nat) (state : σ) :
    fold pool level.act (count + 1) state =
      word .attributeHeader >>= fun slot => Reader.ofExcept (pool.utf8 slot) >>= fun name =>
        doubleWord .attributeHeader >>= fun length =>
          level.readBody state name length.toNat >>= fold pool level.act count := by
  simp only [fold_succ, read, Level.readBody_eq, bind_assoc, pure_bind]

theorem placed_fold {pool : Pool} {level : Level σ}
    (handlers : ∀ handler ∈ level.handlers, handler.reader.Placed file) (count : Nat) (state : σ) :
    (fold pool level.act count state).Placed file := by
  induction count generalizing state with
  | zero => exact placed_pure state
  | succ count ih =>
      rw [fold_level_succ]
      refine (placed_word _).bind fun slot => (placed_utf8 pool _).bind fun name =>
        (placed_doubleWord _).bind fun length => Placed.bind ?_ ih
      unfold Level.readBody
      split
      · next handler found =>
          exact ((handlers handler (Level.mem_of_handler? found).1).enter _ _).bind fun _ =>
            placed_pure _
      · exact (placed_take _ _).bind fun _ => placed_pure _

theorem placed_skipList : skipList.Placed file :=
  (placed_word _).bind fun _ =>
    (((placed_take _ _).bind fun _ => (placed_doubleWord _).bind fun _ =>
      (placed_take _ _).bind fun _ => placed_pure _).times _).bind fun _ => placed_pure _

end Attribute

section Levels

variable {file : Bytes} (pool : Pool)

theorem CodeBody.placed_read : (read pool).Placed file := by
  refine (placed_take _ _).bind fun _ => (placed_doubleWord _).bind fun _ =>
    (placed_take _ _).bind fun _ => (placed_word _).bind fun _ =>
      (placed_take _ _).bind fun _ => (placed_word _).bind fun count =>
        Placed.bind ?_ fun _ => placed_pure _
  rw [withAttribute_eq_act]
  refine Attribute.placed_fold ?_ _ _
  exact List.forall_mem_singleton.2 LineEntry.placed_readTable

theorem MethodDecl.placed_read : (read pool).Placed file := by
  refine (placed_word _).bind fun _ => (placed_word _).bind fun _ =>
    (placed_utf8 pool _).bind fun _ => (placed_word _).bind fun _ =>
      (placed_utf8 pool _).bind fun _ => (placed_word _).bind fun _ => ?_
  rw [withAttribute_eq_act]
  refine Attribute.placed_fold ?_ _ _
  simp only [level, List.forall_mem_cons]
  exact ⟨CodeBody.placed_read pool, placed_pure _, AnnotationUse.placed_readList pool,
    AnnotationUse.placed_readParameters pool, List.forall_mem_nil _⟩

namespace ClassUnit

theorem placed_readAttributes : (readAttributes pool).Placed file := by
  refine (placed_word _).bind fun _ => ?_
  rw [extend_eq_act]
  refine Attribute.placed_fold ?_ _ _
  simp only [level, List.forall_mem_cons]
  exact ⟨(placed_word _).bind fun _ => placed_utf8 pool _, AnnotationUse.placed_readList pool,
    List.forall_mem_nil _⟩

theorem placed_readSuper : (readSuper pool).Placed file := by
  refine (placed_word _).bind fun index => ?_
  split
  · exact placed_pure _
  · exact (placed_className pool _).bind fun _ => placed_pure _

theorem placed_readInterfaces : (readInterfaces pool).Placed file :=
  (placed_word _).bind fun _ => ((placed_word _).bind fun _ => placed_className pool _).times _

theorem placed_skipFields : skipFields.Placed file :=
  (placed_word _).bind fun _ =>
    (((placed_take _ _).bind fun _ => Attribute.placed_skipList).times _).bind fun _ =>
      placed_pure _

theorem placed_readMethods : (readMethods pool).Placed file :=
  (placed_word _).bind fun _ => (MethodDecl.placed_read pool).times _

end ClassUnit

theorem Sections.placed_read : (read pool).Placed file :=
  (placed_word _).bind fun _ => (placed_word _).bind fun _ =>
    (placed_className pool _).bind fun _ => (ClassUnit.placed_readSuper pool).bind fun _ =>
      (ClassUnit.placed_readInterfaces pool).bind fun _ =>
        ClassUnit.placed_skipFields.bind fun _ =>
          (ClassUnit.placed_readMethods pool).bind fun _ =>
            (ClassUnit.placed_readAttributes pool).bind fun _ => placed_pure _

end Levels

/-! ## The constant pool -/

section Pool

variable {file : Bytes}

theorem Constant.placed_readText {slot : Nat} (declared : 1 ≤ slot ∧ slot < declaredSlots file) :
    (readText slot).Placed file := by
  refine (placed_word _).bind fun _ => (placed_take _ _).bind fun bytes => ?_
  cases Text.ModifiedUtf8.decode? bytes with
  | none => exact placed_fail declared
  | some text => exact placed_pure _

theorem Constant.placed_readPair (part : Part) (make : UInt16 → UInt16 → Constant) :
    (readPair part make).Placed file :=
  (placed_word part).bind fun _ => (placed_word part).bind fun _ => placed_pure _

theorem Constant.placed_readBlock (part : Part) (size : Nat) (make : Bytes → Constant) :
    (readBlock part size make).Placed file :=
  (placed_take part size).bind fun _ => placed_pure _

theorem Constant.placed_read {slot : Nat} (declared : 1 ≤ slot ∧ slot < declaredSlots file) :
    (read slot).Placed file := by
  refine (placed_byte _).bind fun tag => ?_
  unfold readPayload
  split
  case h_1 => exact placed_readText declared
  case h_8 | h_9 | h_10 | h_11 => exact placed_readPair _ _
  case h_18 => exact placed_fail declared
  all_goals exact placed_readBlock _ _ _

/-- The slots that are still to be filled are declared ones. -/
theorem Pool.placed_readSlots {slots : Array (Option Constant)} {count : Nat}
    (begun : 1 ≤ slots.size) (declared : count ≠ 0 → slots.size + count ≤ declaredSlots file) :
    (readSlots slots count).Placed file := by
  induction count using Nat.strongRecOn generalizing slots with
  | ind count ih =>
      cases count with
      | zero => exact placed_pure slots
      | succ count =>
          have room := declared (Nat.succ_ne_zero count)
          rw [readSlots_succ]
          refine (Constant.placed_read ⟨begun, by omega⟩).bind fun constant => ?_
          split
          -- A wide constant in the last slot has no room for its second one, and nothing is read there.
          · cases count with
            | zero => exact placed_pure _
            | succ fewer => exact ih fewer (by omega) (by simp) (by simp; omega)
          · exact ih count (by omega) (by simp) (by simp; omega)

end Pool

/-! ## The whole file -/

/-- The pool stands behind the version, where the number of its slots is declared. -/
theorem Pool.points_read {file : Bytes} {window : Window} (inside : window.Inside file)
    (place : window.position = 8) {fault : Fault}
    (fails : Pool.read (window.cursor file) = .error fault) : fault.PointsInto file := by
  rw [Pool.read] at fails
  refine pointsInto_of_bind inside (composes_stepwise.word _)
    ((placed_word _).points window inside) (fun count left insideLeft counted => ?_) fails
  have declared : declaredSlots file = count.toNat := by
    rw [declaredSlots, (eq_of_take_bind inside counted).1, place]
  have slots : (readSlots #[none] (count.toNat - 1)).Placed file :=
    placed_readSlots (Nat.le_refl 1) fun some => by
      have one : (#[none] : Array (Option Constant)).size = 1 := rfl
      omega
  exact (slots.bind fun _ => placed_pure _).points left insideLeft

namespace ClassUnit

variable {file : Bytes}

theorem stepwise_readVersion : readVersion.Stepwise :=
  (composes_stepwise.doubleWord _).bind fun _ => .guard ((composes_stepwise.word _).bind fun _ =>
    (composes_stepwise.word _).bind fun _ => .guard ⟨.done _⟩)

/-- Signature and version are the first things in a file. -/
theorem points_readVersion {fault : Fault}
    (fails : readVersion ((Window.whole file).cursor file) = .error fault) :
    fault.PointsInto file := by
  have whole := Window.inside_whole file
  have word := composes_stepwise.word .header
  refine pointsInto_of_bind whole (composes_stepwise.doubleWord _)
    ((placed_doubleWord _).points _ whole) (fun magic _ _ signed _ signedRest => ?_) fails
  rcases eq_of_take_bind whole signed with ⟨magicEq, behindMagic, left⟩
  rw [left] at signedRest
  rcases error_of_guard signedRest with ⟨differs, rfl⟩ | ⟨_, rest⟩
  · exact ⟨magicEq, by simpa using differs⟩
  refine pointsInto_of_bind behindMagic word ((placed_word _).points _ behindMagic)
    (fun minor _ _ first _ firstRest => ?_) rest
  rcases eq_of_take_bind behindMagic first with ⟨minorEq, behindMinor, left⟩
  rw [left] at firstRest
  refine pointsInto_of_bind behindMinor word ((placed_word _).points _ behindMinor)
    (fun major _ _ second _ secondRest => ?_) firstRest
  rcases eq_of_take_bind behindMinor second with ⟨majorEq, _, _⟩
  rcases error_of_guard secondRest with ⟨outside, rfl⟩ | ⟨_, done⟩
  · refine ⟨minorEq, majorEq, fun supported => ?_⟩
    rw [Bool.or_eq_true] at outside
    rcases outside with below | above
    · exact UInt16.not_le.2 (of_decide_eq_true below) supported.1
    · exact UInt16.not_le.2 (of_decide_eq_true above) supported.2
  · cases done

/-- Signature and version take eight bytes. -/
theorem eq_of_readVersion {window : Window} (inside : window.Inside file)
    {version : UInt16 × UInt16} {later : Cursor}
    (succeeds : readVersion (window.cursor file) = .ok (version, later)) :
    (window.skip 8).Inside file ∧ later = (window.skip 8).cursor file := by
  rcases bind_eq_ok_iff.1 succeeds with ⟨magic, _, signed, signedRest⟩
  rcases eq_of_take_bind inside signed with ⟨_, behindMagic, rfl⟩
  rcases bind_eq_ok_iff.1 (ok_of_guard signedRest).2 with ⟨minor, _, first, firstRest⟩
  rcases eq_of_take_bind behindMagic first with ⟨_, behindMinor, rfl⟩
  rcases bind_eq_ok_iff.1 firstRest with ⟨major, _, second, secondRest⟩
  rcases eq_of_take_bind behindMinor second with ⟨_, behindMajor, rfl⟩
  cases (ok_of_guard secondRest).2
  exact ⟨behindMajor, rfl⟩

end ClassUnit

namespace FileParts

/-- Reads what is behind signature and version. -/
def readBehind (version : UInt16 × UInt16) : Reader FileParts := do
  let pool ← Pool.read
  let sections ← Sections.read pool
  return ⟨version.1, version.2, pool, sections⟩

theorem stepwise_readBehind (version : UInt16 × UInt16) : (readBehind version).Stepwise :=
  (Pool.holds_read composes_stepwise).bind fun pool =>
    (Sections.placed_read pool : (Sections.read pool).Placed []).stepwise.bind fun _ => ⟨.done _⟩

theorem stepwise_read : read.Stepwise :=
  ClassUnit.stepwise_readVersion.bind stepwise_readBehind

variable {bytes : Bytes}

theorem pointsInto_of_read {fault : Fault} (fails : read ⟨0, bytes⟩ = .error fault) :
    fault.PointsInto bytes := by
  have whole := Window.inside_whole bytes
  rw [← Window.cursor_whole] at fails
  refine pointsInto_of_bind whole ClassUnit.stepwise_readVersion
    (fun _ => ClassUnit.points_readVersion) (fun _ left inside versioned _ behind => ?_) fails
  have place : left.position = 8 :=
    congrArg Cursor.offset (ClassUnit.eq_of_readVersion whole versioned).2
  refine pointsInto_of_bind inside (Pool.holds_read composes_stepwise)
    (fun _ => Pool.points_read inside place) (fun pool later insideLater _ => ?_) behind
  exact ((Sections.placed_read pool).bind fun _ => placed_pure _).points later insideLater

/-- Whatever is read, some bytes are. -/
theorem length_rest_lt_of_read {parts : FileParts} {last : Cursor}
    (succeeds : read ⟨0, bytes⟩ = .ok (parts, last)) : last.rest.length < bytes.length := by
  rw [← Window.cursor_whole] at succeeds
  rcases bind_eq_ok_iff.1 succeeds with ⟨version, _, versioned, behind⟩
  rcases ClassUnit.eq_of_readVersion (Window.inside_whole bytes) versioned with ⟨inside, rfl⟩
  rcases (stepwise_readBehind version).exists_left inside behind with
    ⟨left, rfl, insideLeft, forward, same⟩
  have long : 8 ≤ bytes.length := by simpa [Window.skip, Window.whole] using inside.ordered
  have shorter : left.stop - left.position ≤ bytes.length - 8 := by
    simpa [same, Window.skip, Window.whole] using Nat.sub_le_sub_left forward bytes.length
  rw [insideLeft.length_cursor, Window.remaining]
  omega

end FileParts

namespace ClassUnit

theorem stepwise_read : read.Stepwise := by
  rw [read_eq_bind]
  exact FileParts.stepwise_read.bind fun parts => Stepwise.bind ⟨.finish⟩ fun _ =>
    composes_stepwise.ofExcept _

theorem pointsInto_of_ofBytes {bytes : Bytes} {fault : Fault}
    (fails : ofBytes bytes = .error fault) : fault.PointsInto bytes := by
  rw [ofBytes_eq] at fails
  cases outcome : FileParts.read ⟨0, bytes⟩ with
  | error other =>
      rw [outcome] at fails
      cases fails
      exact FileParts.pointsInto_of_read outcome
  | ok step =>
      rcases step with ⟨parts, last⟩
      simp only [outcome] at fails
      -- Once the parts are read, only a symbol or the end of the file can be at fault.
      split at fails
      · have lookups := parts.pool.symbolsOnto_failsAtIndex [] parts.pool.slots.toList
        rcases lookups.map parts.toUnit fault fails with ⟨slot, expected, rfl⟩
        trivial
      · next some =>
          cases fails
          exact ⟨by simpa [List.length_pos_iff] using some,
            FileParts.length_rest_lt_of_read outcome⟩

end ClassUnit

/-- A class file is opened in primitive steps. In whatever way opening is made of them, on every file
the steps look up positions inside the file alone and come to what opening gives; and a fault fits the
bytes of the file at the place that it names. -/
theorem ofBytes_pointsInto :
    ClassUnit.read.Stepwise ∧ ∀ bytes,
      (∀ steps : Steps ClassUnit.read,
        (steps.look bytes (.whole bytes)).map (Except.map Prod.fst) =
          some (ClassUnit.ofBytes bytes)) ∧
      ∀ fault, ClassUnit.ofBytes bytes = .error fault → fault.PointsInto bytes := by
  refine ⟨ClassUnit.stepwise_read, fun bytes => ⟨fun steps => ?_, fun fault =>
    ClassUnit.pointsInto_of_ofBytes⟩⟩
  have follows := steps.follows (Window.inside_whole bytes)
  rw [Window.cursor_whole] at follows
  rw [ClassUnit.ofBytes]
  generalize steps.look bytes (.whole bytes) = sight at follows ⊢
  generalize ClassUnit.read ⟨0, bytes⟩ = outcome at follows ⊢
  cases follows <;> rfl

-- The character at fault stands in the body of an attribute.
example :
    (ClassUnit.ofBytes ((ClassDraft.assemble
        { name := "A", annotations := [⟨"B", ["x"]⟩] }).set 105 0x21)).map ClassUnit.name =
      .error (.malformed .elementValueTag 105) := by
  decide +kernel

end ApiCoverage.ClassFile
