import ApiCoverage.ClassFile.Unit
import ApiCoverage.Proofs.Bytes
import Mathlib.Data.List.Forall2

/-!
# What readers make of bytes

A reader reads a value from bytes when it consumes exactly these bytes, wherever they stand in the
file and whatever follows them. The relation composes: the bytes of consecutive steps are joined,
and a counted repetition reads the joined pieces of its members. Nothing is said about faults, so a
section is shown to be readable by giving its bytes.
-/

namespace ApiCoverage.ClassFile

/-- A count that fits two bytes is the one that is stored. -/
theorem toNat_ofNat_of_le {count : Nat} (bound : count ≤ 65535) :
    (UInt16.ofNat count).toNat = count := by
  rw [UInt16.toNat_ofNat', Nat.mod_eq_of_lt (Nat.lt_succ_of_le bound)]

/-- A length that fits four bytes is the one that is stored. -/
theorem toNat_ofNat_of_lt {length : Nat} (small : length < UInt32.size) :
    (UInt32.ofNat length).toNat = length := by
  rw [UInt32.toNat_ofNat', Nat.mod_eq_of_lt small]

namespace Reader

variable {α β : Type}

/-- `reader` consumes exactly `bytes` and gives `value`. -/
def Reads (reader : Reader α) (bytes : Bytes) (value : α) : Prop :=
  ∀ offset rest, reader ⟨offset, bytes ++ rest⟩ = .ok (value, ⟨offset + bytes.length, rest⟩)

theorem bind_apply (reader : Reader α) (next : α → Reader β) (cursor : Cursor) :
    (reader >>= next) cursor =
      match reader cursor with
      | .error fault => .error fault
      | .ok (value, later) => next value later := by
  change Except.bind (reader cursor) _ = _
  cases reader cursor <;> rfl

theorem bind_eq_ok_iff {reader : Reader α} {next : α → Reader β} {cursor last : Cursor}
    {result : β} :
    (reader >>= next) cursor = .ok (result, last) ↔
      ∃ value later,
        reader cursor = .ok (value, later) ∧ next value later = .ok (result, last) := by
  rw [bind_apply]
  cases reader cursor with
  | error fault => simp
  | ok step =>
      rcases step with ⟨value, later⟩
      simp

/-- A step on the bytes that it reads hands its value to the step after it. -/
theorem Reads.bind_apply {reader : Reader α} {bytes : Bytes} {value : α}
    (reads : reader.Reads bytes value) (next : α → Reader β) (offset : Nat) (rest : Bytes) :
    (reader >>= next) ⟨offset, bytes ++ rest⟩ = next value ⟨offset + bytes.length, rest⟩ := by
  rw [Reader.bind_apply, reads]

theorem pure_apply (value : α) (cursor : Cursor) :
    (pure value : Reader α) cursor = .ok (value, cursor) :=
  rfl

theorem reads_pure (value : α) : (pure value : Reader α).Reads [] value :=
  fun _ _ => rfl

/-- Consecutive steps read joined bytes. -/
theorem Reads.bind {reader : Reader α} {next : α → Reader β} {first second : Bytes} {value : α}
    {result : β} (before : reader.Reads first value) (after : (next value).Reads second result) :
    (reader >>= next).Reads (first ++ second) result := by
  intro offset rest
  rw [List.append_assoc, before.bind_apply, after]
  simp [Nat.add_assoc]

/-- A last step that computes its value consumes nothing. -/
theorem Reads.bind_pure {reader : Reader α} {bytes : Bytes} {value : α}
    (reads : reader.Reads bytes value) (next : α → β) :
    (reader >>= fun value => pure (next value)).Reads bytes (next value) := by
  intro offset rest
  rw [reads.bind_apply]
  rfl

/-- A step that consumes nothing leaves the bytes to the step after it. -/
theorem Reads.bind_of_nil {reader : Reader α} {next : α → Reader β} {bytes : Bytes} {value : α}
    {result : β} (before : reader.Reads [] value) (after : (next value).Reads bytes result) :
    (reader >>= next).Reads bytes result :=
  before.bind after

/-- A step may use its position as long as what it reads does not depend on it. -/
theorem reads_position_bind {next : Nat → Reader α} {bytes : Bytes} {value : α}
    (reads : ∀ offset, (next offset).Reads bytes value) : (position >>= next).Reads bytes value :=
  fun offset rest => reads offset offset rest

@[simp]
theorem position_bind (next : Nat → Reader α) (cursor : Cursor) :
    (position >>= next) cursor = next cursor.offset cursor :=
  rfl

@[simp]
theorem ofExcept_ok_bind (value : α) (next : α → Reader β) :
    (ofExcept (.ok value) >>= next) = next value :=
  rfl

theorem reads_ofExcept {outcome : Except Fault α} {value : α} (ok : outcome = .ok value) :
    (ofExcept outcome).Reads [] value := by
  subst ok
  exact fun _ _ => rfl

theorem reads_take (part : Part) (bytes : Bytes) : (take part bytes.length).Reads bytes bytes := by
  intro offset rest
  have split : Bytes.split? bytes.length (bytes ++ rest) = some (bytes, rest) :=
    Bytes.split?_eq_some_iff.2 ⟨rfl, rfl⟩
  simp only [take, split]

theorem reads_take_of_length {part : Part} {bytes : Bytes} {count : Nat}
    (length_eq : bytes.length = count) : (take part count).Reads bytes bytes :=
  length_eq ▸ reads_take part bytes

/-- What is taken stands in front. -/
theorem rest_of_take {part : Part} {count : Nat} {cursor later : Cursor} {bytes : Bytes}
    (succeeds : take part count cursor = .ok (bytes, later)) :
    cursor.rest = bytes ++ later.rest ∧ bytes.length = count := by
  unfold take at succeeds
  split at succeeds
  · next split =>
      cases succeeds
      exact Bytes.split?_eq_some_iff.1 split
  · cases succeeds

theorem rest_of_word {part : Part} {cursor later : Cursor} {value : UInt16}
    (succeeds : word part cursor = .ok (value, later)) :
    cursor.rest = Bytes.ofUInt16 value ++ later.rest := by
  rcases bind_eq_ok_iff.1 succeeds with ⟨front, next, taken, given⟩
  cases given
  rcases rest_of_take taken with ⟨whole, two⟩
  rw [whole, Bytes.ofUInt16_toUInt16 two]

theorem rest_of_doubleWord {part : Part} {cursor later : Cursor} {value : UInt32}
    (succeeds : doubleWord part cursor = .ok (value, later)) :
    cursor.rest = Bytes.ofUInt32 value ++ later.rest := by
  rcases bind_eq_ok_iff.1 succeeds with ⟨front, next, taken, given⟩
  cases given
  rcases rest_of_take taken with ⟨whole, four⟩
  rw [whole, Bytes.ofUInt32_toUInt32 four]

theorem eq_ok_of_ofExcept {outcome : Except Fault α} {cursor later : Cursor} {value : α}
    (succeeds : ofExcept outcome cursor = .ok (value, later)) :
    outcome = .ok value ∧ later = cursor := by
  cases outcome with
  | error fault => cases succeeds
  | ok value =>
      cases succeeds
      exact ⟨rfl, rfl⟩

/-- What comes behind a check only succeeds if the check does not refuse. -/
theorem ok_of_guard {refuses : Prop} [Decidable refuses] {fault : Fault} {next : Reader α}
    {cursor : Cursor} {step : α × Cursor}
    (succeeds : (if refuses then (fail fault : Reader Unit) >>= fun _ => next else next) cursor =
      .ok step) : ¬refuses ∧ next cursor = .ok step := by
  by_cases refused : refuses
  · rw [if_pos refused] at succeeds
    cases succeeds
  · rw [if_neg refused] at succeeds
    exact ⟨refused, succeeds⟩

theorem reads_byte (part : Part) (value : UInt8) : (byte part).Reads [value] value :=
  (reads_take part [value]).bind_pure fun bytes => bytes.headD 0

theorem reads_word (part : Part) (value : UInt16) :
    (word part).Reads (Bytes.ofUInt16 value) value := by
  have reads := (reads_take part (Bytes.ofUInt16 value)).bind_pure Bytes.toUInt16
  rwa [Bytes.toUInt16_ofUInt16] at reads

theorem reads_doubleWord (part : Part) (value : UInt32) :
    (doubleWord part).Reads (Bytes.ofUInt32 value) value := by
  have reads := (reads_take part (Bytes.ofUInt32 value)).bind_pure Bytes.toUInt32
  rwa [Bytes.toUInt32_ofUInt32] at reads

/-- The members of a repetition come behind those already read. -/
theorem timesOnto_eq {reader : Reader α} {values : List α} {pieces : List Bytes}
    (members : List.Forall₂ (fun value piece => reader.Reads piece value) values pieces)
    (done : List α) (offset : Nat) (rest : Bytes) :
    timesOnto reader done values.length ⟨offset, pieces.flatten ++ rest⟩ =
      .ok (done.reverse ++ values, ⟨offset + pieces.flatten.length, rest⟩) := by
  induction members generalizing done offset with
  | nil => simp [timesOnto]
  | @cons value piece values pieces member _ ih =>
      rw [List.flatten_cons, List.append_assoc, List.length_cons]
      simp [timesOnto, member offset, ih, Nat.add_assoc]

/-- A repetition reads the joined pieces of its members. -/
theorem reads_times {reader : Reader α} {values : List α} {pieces : List Bytes} {count : Nat}
    (members : List.Forall₂ (fun value piece => reader.Reads piece value) values pieces)
    (count_eq : count = values.length) :
    (times count reader).Reads pieces.flatten values := by
  intro offset rest
  subst count_eq
  rw [times, timesOnto_eq members]
  rfl

end Reader

namespace Attribute

variable {σ : Type}

/-- The bytes of an attribute whose name stands in a slot. -/
def encode (slot : UInt16) (body : Bytes) : Bytes :=
  Bytes.ofUInt16 slot ++ Bytes.ofUInt32 (UInt32.ofNat body.length) ++ body

/-- An attribute is read with the place of its body, which the reading of the body depends on only
through faults. -/
theorem read_encode {pool : Pool} {slot : UInt16} {name : String} {body : Bytes}
    (named : pool.utf8 slot = .ok name) (small : body.length < UInt32.size) (offset : Nat)
    (rest : Bytes) :
    read pool ⟨offset, encode slot body ++ rest⟩ =
      .ok (⟨name, ⟨offset + 6, body⟩⟩, ⟨offset + (encode slot body).length, rest⟩) := by
  have size := toNat_ofNat_of_lt small
  unfold read encode
  rw [List.append_assoc, List.append_assoc, (Reader.reads_word _ slot).bind_apply, named,
    Reader.ofExcept_ok_bind, (Reader.reads_doubleWord _ _).bind_apply, Reader.position_bind,
    (Reader.reads_take_of_length size.symm).bind_apply]
  rw [Reader.pure_apply]
  simp only [Bytes.length_ofUInt16, Bytes.length_ofUInt32, List.length_append, Nat.add_assoc,
    Nat.reduceAdd]

/-- Attributes, by name and body, one after another, each acting on the state that the one before it
left. The action may not depend on where the body stands. -/
inductive Chain (act : σ → Attribute → Except Fault σ) : List (String × Bytes) → σ → σ → Prop where
  | nil (state : σ) : Chain act [] state state
  | cons {name : String} {body : Bytes} {entries : List (String × Bytes)} {before middle after : σ}
      (small : body.length < UInt32.size)
      (head : ∀ offset, act before ⟨name, ⟨offset, body⟩⟩ = .ok middle)
      (tail : Chain act entries middle after) :
      Chain act ((name, body) :: entries) before after

theorem Chain.single {act : σ → Attribute → Except Fault σ} {name : String} {body : Bytes}
    {before after : σ} (small : body.length < UInt32.size)
    (acts : ∀ offset, act before ⟨name, ⟨offset, body⟩⟩ = .ok after) :
    Chain act [(name, body)] before after :=
  .cons small acts (.nil after)

theorem Chain.append {act : σ → Attribute → Except Fault σ} {first second : List (String × Bytes)}
    {before middle after : σ} (front : Chain act first before middle)
    (back : Chain act second middle after) : Chain act (first ++ second) before after := by
  induction front with
  | nil => exact back
  | cons small head _ ih => exact .cons small head (ih back)

/-- An attribute is written with some slot that holds its name. -/
def Written (pool : Pool) (entry : String × Bytes) (bytes : Bytes) : Prop :=
  ∃ slot, pool.utf8 slot = .ok entry.1 ∧ bytes = encode slot entry.2

/-- Reading a list of attributes ends in the state that their chain ends in. -/
theorem reads_fold {pool : Pool} {act : σ → Attribute → Except Fault σ}
    {entries : List (String × Bytes)} {pieces : List Bytes} {before after : σ}
    (chain : Chain act entries before after) (written : List.Forall₂ (Written pool) entries pieces) :
    (fold pool act entries.length before).Reads pieces.flatten after := by
  intro offset rest
  induction chain generalizing offset pieces with
  | nil =>
      cases written
      rfl
  | cons small head _ ih =>
      rcases written with _ | ⟨⟨slot, named, rfl⟩, written⟩
      rw [List.flatten_cons, List.append_assoc, List.length_cons]
      simp only [fold, read_encode named small, head, ih written, List.length_append,
        Nat.add_assoc]

end Attribute

end ApiCoverage.ClassFile
