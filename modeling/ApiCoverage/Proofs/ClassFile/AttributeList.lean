import ApiCoverage.Proofs.ClassFile.Relocation
import Mathlib.Data.List.Pairwise
import Mathlib.Logic.Function.Conjugate

/-!
# What a list of attributes does

At each level of a class file some attribute names are recognised, and attributes of other names are
passed over. Up to faults, an attribute either cannot be read, whatever stands before it, or it
changes the state in a way that its name and its body determine, and the changes that belong to
different names commute. Hence unknown attributes can be added anywhere, and a list in which no
recognised name occurs twice can be put into any order.
-/

namespace ApiCoverage.ClassFile

open Reader

/-- An attribute as a class file holds it. -/
structure RawAttribute where
  /-- The slot of the name. -/
  slot : UInt16
  body : Bytes
  /-- The length of the body is stated in four bytes. -/
  small : body.length < UInt32.size

namespace RawAttribute

/-- The bytes of an attribute. -/
def encode (entry : RawAttribute) : Bytes :=
  Attribute.encode entry.slot entry.body

/-- The name of an attribute, if its slot holds a text. -/
def name? (pool : Pool) (entry : RawAttribute) : Option String :=
  (pool.utf8 entry.slot).toOption

/-- The attributes of a given name, in order. -/
def called (pool : Pool) (name : String) (entries : List RawAttribute) : List RawAttribute :=
  entries.filter fun entry => entry.name? pool = some name

/-- Up to faults, what a reader makes of the body of an attribute. -/
def read? {α : Type} (reader : Reader α) (entry : RawAttribute) : Option α :=
  reader.outcome? entry.body

end RawAttribute

namespace Attribute

/-- What attributes of a name do: their body is read, and the value changes the state. -/
structure Handler (σ : Type) where
  name : String
  Value : Type
  reader : Reader Value
  relocatable : reader.Relocatable
  change : Value → σ → σ

/-- What two handlers do to the state commutes. -/
def Handler.Independent {σ : Type} (handler other : Handler σ) : Prop :=
  ∀ value otherValue, Function.Commute (handler.change value) (other.change otherValue)

instance {σ : Type} : Std.Symm (Handler.Independent (σ := σ)) :=
  ⟨fun _ _ independent value otherValue => (independent otherValue value).symm⟩

/-- The attributes that are recognised at a level of a class file. -/
structure Level (σ : Type) where
  handlers : List (Handler σ)
  independent : handlers.Pairwise Handler.Independent

namespace Level

variable {σ : Type}

/-- The recognised names. -/
def known (level : Level σ) : List String :=
  level.handlers.map Handler.name

/-- What is done for a name. -/
def handler? (level : Level σ) (name : String) : Option (Handler σ) :=
  level.handlers.find? fun handler => handler.name == name

/-- The state after an attribute. -/
def act (level : Level σ) (state : σ) (entry : Attribute) : Except Fault σ :=
  match level.handler? entry.name with
  | some handler => (entry.parse handler.reader).map fun value => handler.change value state
  | none => .ok state

/-- Up to faults, how an attribute of a name and with a body changes the state. -/
def effect (level : Level σ) (name : String) (body : Bytes) : Option (σ → σ) :=
  match level.handler? name with
  | some handler => (handler.reader.outcome? body).map handler.change
  | none => some id

/-- Up to faults, how an attribute of a file with a given pool changes the state. -/
def effectOf (level : Level σ) (pool : Pool) (entry : RawAttribute) : Option (σ → σ) :=
  (entry.name? pool).bind fun name => level.effect name entry.body

/-- What an attribute does depends neither on its place nor, up to faults, on the state. -/
theorem toOption_act (level : Level σ) (state : σ) (name : String) (offset : Nat) (body : Bytes) :
    (level.act state ⟨name, ⟨offset, body⟩⟩).toOption =
      (level.effect name body).map fun change => change state := by
  simp only [act, effect]
  cases level.handler? name with
  | none => rfl
  | some handler =>
      simp only [Outcome.toOption_map, handler.relocatable.toOption_parse, Option.map_map]
      rfl

theorem handler?_eq_none_iff {level : Level σ} {name : String} :
    level.handler? name = none ↔ name ∉ level.known := by
  simp [handler?, known]

theorem mem_of_handler? {level : Level σ} {name : String} {handler : Handler σ}
    (found : level.handler? name = some handler) :
    handler ∈ level.handlers ∧ handler.name = name :=
  ⟨List.mem_of_find?_eq_some found, by simpa using List.find?_some found⟩

theorem effect_of_unknown {level : Level σ} {name : String} (body : Bytes)
    (unknown : name ∉ level.known) : level.effect name body = some id := by
  rw [effect, handler?_eq_none_iff.2 unknown]

/-- An attribute that can be read is one that a handler reads, or one that is passed over. -/
theorem effectOf_cases {level : Level σ} {pool : Pool} {entry : RawAttribute} {change : σ → σ}
    (given : level.effectOf pool entry = some change) :
    (∃ handler ∈ level.handlers, entry.name? pool = some handler.name ∧
      ∃ value, entry.read? handler.reader = some value ∧ change = handler.change value) ∨
    (∃ name, entry.name? pool = some name ∧ name ∉ level.known) ∧ change = id := by
  rcases Option.bind_eq_some_iff.1 given with ⟨name, named, effect⟩
  unfold Level.effect at effect
  cases found : level.handler? name with
  | none =>
      rw [found, Option.some.injEq] at effect
      exact .inr ⟨⟨name, named, handler?_eq_none_iff.1 found⟩, effect.symm⟩
  | some handler =>
      rw [found] at effect
      rcases Option.map_eq_some_iff.1 effect with ⟨value, read, rfl⟩
      rcases mem_of_handler? found with ⟨member, rfl⟩
      exact .inl ⟨handler, member, named, value, read, rfl⟩

/-- The state after a list of attributes. -/
def run (level : Level σ) (pool : Pool) : List RawAttribute → σ → Option σ
  | [], state => some state
  | entry :: rest, state =>
      (level.effectOf pool entry).bind fun change => level.run pool rest (change state)

variable {level : Level σ} {pool : Pool}

theorem run_cons_eq_some_iff {entry : RawAttribute} {rest : List RawAttribute}
    {state result : σ} :
    level.run pool (entry :: rest) state = some result ↔
      ∃ change, level.effectOf pool entry = some change ∧
        level.run pool rest (change state) = some result :=
  Option.bind_eq_some_iff

/-- A list whose attributes have an effect has one of each. -/
theorem exists_effectOf_of_run {entries : List RawAttribute} {state result : σ}
    (given : level.run pool entries state = some result) {entry : RawAttribute}
    (member : entry ∈ entries) : ∃ change, level.effectOf pool entry = some change := by
  induction entries generalizing state with
  | nil => cases member
  | cons head rest ih =>
      rcases run_cons_eq_some_iff.1 given with ⟨change, effect, tail⟩
      rcases List.mem_cons.1 member with rfl | later
      · exact ⟨change, effect⟩
      · exact ih tail later

/-! ## Reading the list -/

theorem gives_fold (level : Level σ) (entries : List RawAttribute) (state : σ) :
    (fold pool level.act entries.length state).Gives (entries.flatMap RawAttribute.encode)
      (level.run pool entries state) := by
  induction entries generalizing state with
  | nil => exact gives_some_iff.2 (reads_pure state)
  | cons entry rest ih =>
      rw [List.length_cons, fold_succ, List.flatMap_cons, RawAttribute.encode, encode,
        List.append_assoc, List.append_assoc]
      simp only [read, bind_assoc, pure_bind, run, effectOf, Option.bind_assoc]
      refine (reads_word _ entry.slot).bind_gives ((gives_ofExcept _).bind fun name => ?_)
      refine (reads_doubleWord _ _).bind_gives (gives_position_bind fun offset => ?_)
      refine (reads_take_of_length (toNat_ofNat_of_lt entry.small).symm).bind_gives ?_
      have acted := (gives_ofExcept (level.act state ⟨name, ⟨offset, entry.body⟩⟩)).bind ih
      rwa [level.toOption_act, Option.bind_map] at acted

end Level

/-- The bytes of an attribute whose length is stated. -/
theorem encode_of_length {slot : UInt16} {length : UInt32} {body : Bytes}
    (size : body.length = length.toNat) :
    encode slot body = Bytes.ofUInt16 slot ++ Bytes.ofUInt32 length ++ body := by
  rw [encode, size, UInt32.ofNat_toNat]

theorem exists_of_read {pool : Pool} {cursor later : Cursor} {value : Attribute}
    (succeeds : read pool cursor = .ok (value, later)) :
    ∃ entry : RawAttribute, cursor.rest = entry.encode ++ later.rest := by
  rcases bind_eq_ok_iff.1 succeeds with ⟨slot, atName, slotRead, afterSlot⟩
  rcases bind_eq_ok_iff.1 afterSlot with ⟨name, _, named, afterName⟩
  rcases eq_ok_of_ofExcept named with ⟨_, rfl⟩
  rcases bind_eq_ok_iff.1 afterName with ⟨length, atBody, lengthRead, afterLength⟩
  rcases bind_eq_ok_iff.1 afterLength with ⟨offset, _, placed, afterPlace⟩
  cases placed
  rcases bind_eq_ok_iff.1 afterPlace with ⟨body, last, taken, given⟩
  cases given
  rcases rest_of_take taken with ⟨split, size⟩
  refine ⟨⟨slot, body, size ▸ length.toNat_lt⟩, ?_⟩
  change _ = encode slot body ++ _
  rw [rest_of_word slotRead, rest_of_doubleWord lengthRead, split, encode_of_length size]
  simp only [List.append_assoc]

theorem exists_entries_of_fold {σ : Type} {pool : Pool} {act : σ → Attribute → Except Fault σ}
    {count : Nat} {state result : σ} {cursor last : Cursor}
    (succeeds : fold pool act count state cursor = .ok (result, last)) :
    ∃ entries : List RawAttribute, entries.length = count ∧
      cursor.rest = entries.flatMap RawAttribute.encode ++ last.rest := by
  induction count generalizing state cursor with
  | zero =>
      cases succeeds
      exact ⟨[], rfl, rfl⟩
  | succ count ih =>
      rw [fold_succ] at succeeds
      rcases bind_eq_ok_iff.1 succeeds with ⟨value, later, first, others⟩
      rcases bind_eq_ok_iff.1 others with ⟨_, _, acted, tail⟩
      rcases eq_ok_of_ofExcept acted with ⟨_, rfl⟩
      rcases exists_of_read first with ⟨entry, given⟩
      rcases ih tail with ⟨entries, rfl, left⟩
      exact ⟨entry :: entries, rfl, by rw [given, left, List.flatMap_cons, List.append_assoc]⟩

theorem Level.relocatable_fold {σ : Type} (level : Level σ) (pool : Pool) (count : Nat)
    (state : σ) : (fold pool level.act count state).Relocatable := by
  apply relocatable_of_gives
  intro cursor result last succeeds
  rcases exists_entries_of_fold succeeds with ⟨entries, rfl, given⟩
  exact ⟨_, _, given, level.gives_fold entries state⟩

/-! ## Adding and reordering -/

/-- Two attributes do not share a recognised name. -/
def Apart (known : List String) (pool : Pool) (entry other : RawAttribute) : Prop :=
  ∀ name ∈ known, entry.name? pool = some name → other.name? pool ≠ some name

theorem Apart.symm {known : List String} {pool : Pool} {entry other : RawAttribute}
    (apart : Apart known pool entry other) : Apart known pool other entry :=
  fun name member named same => apart name member same named

/-- A list of attributes with an unknown one added, or in another order if no recognised name occurs
twice. -/
inductive Rearranged (known : List String) (pool : Pool) :
    List RawAttribute → List RawAttribute → Prop where
  | insert (before after : List RawAttribute) (entry : RawAttribute) {name : String}
      (named : entry.name? pool = some name) (unknown : name ∉ known) :
      Rearranged known pool (before ++ after) (before ++ entry :: after)
  | permute {entries others : List RawAttribute} (perm : entries.Perm others)
      (once : entries.Pairwise (Apart known pool)) : Rearranged known pool entries others

namespace Level

variable {σ : Type} {level : Level σ} {pool : Pool}

theorem run_append (front back : List RawAttribute) (state : σ) :
    level.run pool (front ++ back) state =
      (level.run pool front state).bind (level.run pool back) := by
  induction front generalizing state with
  | nil => rfl
  | cons entry front ih => simp [run, ih, Option.bind_assoc]

theorem effectOf_of_unknown {entry : RawAttribute} {name : String}
    (named : entry.name? pool = some name) (unknown : name ∉ level.known) :
    level.effectOf pool entry = some id := by
  rw [effectOf, named, Option.bind_some, effect_of_unknown _ unknown]

/-- Attributes without a recognised name in common can be swapped. -/
theorem effectOf_commute {entry other : RawAttribute} {change otherChange : σ → σ}
    (apart : Apart level.known pool entry other)
    (given : level.effectOf pool entry = some change)
    (otherGiven : level.effectOf pool other = some otherChange) :
    Function.Commute change otherChange := by
  rcases effectOf_cases given with ⟨handler, member, named, value, _, rfl⟩ | ⟨_, rfl⟩
  · rcases effectOf_cases otherGiven with
      ⟨otherHandler, otherMember, otherNamed, otherValue, _, rfl⟩ | ⟨_, rfl⟩
    · have differs : handler ≠ otherHandler := by
        rintro rfl
        exact apart handler.name (List.mem_map_of_mem member) named otherNamed
      exact level.independent.forall member otherMember differs value otherValue
    · exact Function.Commute.id_right
  · exact Function.Commute.id_left

theorem run_perm {entries others : List RawAttribute} (perm : entries.Perm others)
    (once : entries.Pairwise (Apart level.known pool)) (state : σ) :
    level.run pool entries state = level.run pool others state := by
  induction perm generalizing state with
  | nil => rfl
  | cons entry _ ih =>
      have rest := (List.pairwise_cons.1 once).2
      simp only [run, ih rest]
  | swap entry other rest =>
      have apart := (List.pairwise_cons.1 once).1 entry List.mem_cons_self
      simp only [run]
      cases first : level.effectOf pool entry with
      | none => cases level.effectOf pool other <;> simp
      | some change =>
          cases second : level.effectOf pool other with
          | none => simp
          | some otherChange =>
              have commute := effectOf_commute apart second first
              simp [commute.eq]
  | trans front _ ihFront ihBack => rw [ihFront once, ihBack (front.pairwise once Apart.symm)]

theorem run_eq_of_rearranged (level : Level σ) {entries others : List RawAttribute}
    (rearranged : Rearranged level.known pool entries others) (state : σ) :
    level.run pool others state = level.run pool entries state := by
  cases rearranged with
  | insert before after entry named unknown =>
      simp [run_append, run, effectOf_of_unknown named unknown]
  | permute perm once => exact (run_perm perm once state).symm

end Level

end Attribute

end ApiCoverage.ClassFile
