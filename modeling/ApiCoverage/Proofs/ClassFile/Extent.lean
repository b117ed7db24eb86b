import ApiCoverage.ClassFile.Assembly
import ApiCoverage.Proofs.ClassFile.Composition
import ApiCoverage.Proofs.ClassFile.Sections
import ApiCoverage.Proofs.Outcome

/-!
# Where reading stops

A reader that succeeds has taken a stretch of bytes, and nothing behind the stretch had a part in
it: with other bytes behind, the reader takes the same stretch and gives the same value, and with
less than the stretch it reports that the bytes end, with the exact place. This passes from steps to
sequences and repetitions, so it holds of a whole class file. Hence no class file is the beginning
of another.

A body inside an attribute is taken as a whole before it is looked into, so what is read out of it
never meets the end of the file and counts as a computation on the stretch.
-/

namespace ApiCoverage.ClassFile

/-- The bytes end at a position of the file, inside what was to be read. -/
def Fault.EndsAt (fault : Fault) (position : Nat) : Prop :=
  ∃ part offset expected available, fault = .truncated part offset expected available ∧
    offset + available = position ∧ available < expected

namespace Reader

variable {α β : Type}

/-- From an offset, a reader takes a stretch of bytes and gives a value; it takes no less. -/
structure Takes (reader : Reader α) (offset : Nat) (stretch : Bytes) (value : α) : Prop where
  reads : ∀ rest,
    reader ⟨offset, stretch ++ rest⟩ = .ok (value, ⟨offset + stretch.length, rest⟩)
  ends : ∀ kept lost, stretch = kept ++ lost → lost ≠ [] →
    ∃ fault, reader ⟨offset, kept⟩ = .error fault ∧ fault.EndsAt (offset + kept.length)

/-- Whenever a reader succeeds, it has taken a stretch of the bytes that it was given. -/
def Delimited (reader : Reader α) : Prop :=
  ∀ ⦃cursor value last⦄, reader cursor = .ok (value, last) →
    ∃ stretch, cursor.rest = stretch ++ last.rest ∧ reader.Takes cursor.offset stretch value

/-- A step that consumes nothing takes the empty stretch. -/
theorem takes_nil {reader : Reader α} {offset : Nat} {value : α}
    (reads : ∀ rest, reader ⟨offset, rest⟩ = .ok (value, ⟨offset, rest⟩)) :
    reader.Takes offset [] value := by
  refine ⟨reads, ?_⟩
  intro kept lost split present
  exact absurd (List.append_eq_nil_iff.1 split.symm).2 present

theorem Takes.bind {reader : Reader α} {next : α → Reader β} {offset : Nat} {first second : Bytes}
    {value : α} {result : β} (before : reader.Takes offset first value)
    (after : (next value).Takes (offset + first.length) second result) :
    (reader >>= next).Takes offset (first ++ second) result := by
  constructor
  · intro rest
    rw [List.append_assoc, bind_apply, before.reads]
    simp only [after.reads, List.length_append, Nat.add_assoc]
  · intro kept lost split present
    -- The cut falls into the first stretch, or the first stretch is kept as a whole.
    rcases List.append_eq_append_iff.1 split with ⟨more, rfl, tail⟩ | ⟨more, rfl, rfl⟩
    · rcases after.ends more lost tail present with ⟨fault, fails, ends⟩
      refine ⟨fault, ?_, ?_⟩
      · rw [bind_apply, before.reads]
        exact fails
      · rwa [List.length_append, ← Nat.add_assoc]
    · cases more with
      | nil =>
          rcases after.ends [] second rfl (by simpa using present) with ⟨fault, fails, ends⟩
          have whole := before.reads []
          rw [List.append_nil, List.append_nil] at whole
          refine ⟨fault, ?_, by simpa using ends⟩
          rw [bind_apply, whole]
          simpa using fails
      | cons byte more =>
          rcases before.ends kept (byte :: more) rfl (by simp) with ⟨fault, fails, ends⟩
          refine ⟨fault, ?_, ends⟩
          rw [bind_apply, fails]

theorem Delimited.bind {reader : Reader α} {next : α → Reader β} (before : reader.Delimited)
    (after : ∀ value, (next value).Delimited) : (reader >>= next).Delimited := by
  intro cursor result last succeeds
  rcases bind_eq_ok_iff.1 succeeds with ⟨value, later, first, second⟩
  rcases before first with ⟨front, given, takes⟩
  rcases after value second with ⟨back, left, takesBack⟩
  have place : later.offset = cursor.offset + front.length := by
    have again := takes.reads later.rest
    rw [← given, first] at again
    exact congrArg (fun step => step.2.offset) (Except.ok.inj again)
  rw [place] at takesBack
  exact ⟨front ++ back, by rw [given, left, List.append_assoc], takes.bind takesBack⟩

theorem delimited_pure (value : α) : (pure value : Reader α).Delimited := by
  intro cursor result last succeeds
  cases succeeds
  exact ⟨[], rfl, takes_nil fun _ => rfl⟩

theorem delimited_fail (fault : Fault) : (fail fault : Reader α).Delimited := by
  intro cursor result last succeeds
  cases succeeds

theorem delimited_position : position.Delimited := by
  intro cursor result last succeeds
  cases succeeds
  exact ⟨[], rfl, takes_nil fun _ => rfl⟩

/-- A refusal in between does not matter to what comes after it. -/
theorem Delimited.guard {refuses : Prop} [Decidable refuses] {fault : Fault} {next : Reader α}
    (after : next.Delimited) :
    (if refuses then (fail fault : Reader Unit) >>= fun _ => next else next).Delimited := by
  split
  · exact (delimited_fail fault).bind fun _ => after
  · exact after

/-- Every fault at the end of the bytes stems from here. -/
theorem takes_take (part : Part) (offset : Nat) (stretch : Bytes) :
    (take part stretch.length).Takes offset stretch stretch := by
  refine ⟨reads_take part stretch offset, ?_⟩
  intro kept lost split present
  have short : kept.length < stretch.length := by
    rw [split, List.length_append]
    exact Nat.lt_add_of_pos_right (List.length_pos_iff.2 present)
  refine ⟨.truncated part offset stretch.length kept.length, ?_, part, _, _, _, rfl, rfl, short⟩
  simp only [take, Bytes.split?_eq_none_iff.2 short]

theorem delimited_take (part : Part) (count : Nat) : (take part count).Delimited := by
  intro cursor stretch last succeeds
  rcases rest_of_take succeeds with ⟨given, rfl⟩
  exact ⟨stretch, given, takes_take part cursor.offset stretch⟩

theorem composes_delimited : Composes @Delimited where
  pure := delimited_pure
  fail := delimited_fail
  take := delimited_take
  bind := Delimited.bind

theorem delimited_ofExcept (outcome : Except Fault α) : (ofExcept outcome).Delimited :=
  composes_delimited.ofExcept outcome

theorem delimited_word (part : Part) : (word part).Delimited :=
  composes_delimited.word part

theorem delimited_doubleWord (part : Part) : (doubleWord part).Delimited :=
  composes_delimited.doubleWord part

theorem Delimited.times {reader : Reader α} (member : reader.Delimited) (count : Nat) :
    (times count reader).Delimited :=
  composes_delimited.times member count

end Reader

open Reader

theorem Pool.delimited_read : Pool.read.Delimited :=
  holds_read composes_delimited

/-! ## Attributes -/

namespace Attribute

theorem delimited_read (pool : Pool) : (read pool).Delimited :=
  (delimited_word _).bind fun _ => (delimited_ofExcept _).bind fun _ =>
    (delimited_doubleWord _).bind fun _ => delimited_position.bind fun _ =>
      (delimited_take _ _).bind fun _ => delimited_pure _

theorem delimited_skipList : skipList.Delimited :=
  (delimited_word _).bind fun _ =>
    (((delimited_take _ _).bind fun _ => (delimited_doubleWord _).bind fun _ =>
      (delimited_take _ _).bind fun _ => delimited_pure _).times _).bind fun _ => delimited_pure _

/-- Attributes are read one by one, and each acts on the state. -/
theorem fold_succ {σ : Type} (pool : Pool) (act : σ → Attribute → Except Fault σ) (count : Nat)
    (state : σ) :
    fold pool act (count + 1) state =
      read pool >>= fun entry => Reader.ofExcept (act state entry) >>= fold pool act count := by
  funext cursor
  simp only [bind_apply, fold]
  cases read pool cursor with
  | error fault => rfl
  | ok step =>
      rcases step with ⟨entry, later⟩
      cases outcome : act state entry <;> simp [Reader.ofExcept, outcome, Except.map]

theorem delimited_fold {σ : Type} (pool : Pool) (act : σ → Attribute → Except Fault σ)
    (count : Nat) (state : σ) : (fold pool act count state).Delimited := by
  induction count generalizing state with
  | zero => exact delimited_pure state
  | succ count ih =>
      rw [fold_succ]
      exact (delimited_read pool).bind fun entry =>
        (delimited_ofExcept _).bind fun after => ih after

end Attribute

/-! ## The whole file -/

theorem MethodDecl.delimited_read (pool : Pool) : (read pool).Delimited :=
  (delimited_word _).bind fun _ => (delimited_word _).bind fun _ =>
    (delimited_ofExcept _).bind fun _ => (delimited_word _).bind fun _ =>
      (delimited_ofExcept _).bind fun _ => (delimited_word _).bind fun _ =>
        Attribute.delimited_fold _ _ _ _

namespace ClassUnit

theorem delimited_readVersion : readVersion.Delimited :=
  (delimited_doubleWord _).bind fun _ => .guard ((delimited_word _).bind fun _ =>
    (delimited_word _).bind fun _ => .guard (delimited_pure _))

theorem delimited_readSuper (pool : Pool) : (readSuper pool).Delimited := by
  refine (delimited_word _).bind fun index => ?_
  split
  · exact delimited_pure _
  · exact (delimited_ofExcept _).bind fun _ => delimited_pure _

theorem delimited_readInterfaces (pool : Pool) : (readInterfaces pool).Delimited :=
  (delimited_word _).bind fun _ =>
    ((delimited_word _).bind fun _ => delimited_ofExcept _).times _

theorem delimited_skipFields : skipFields.Delimited :=
  (delimited_word _).bind fun _ =>
    (((delimited_take _ _).bind fun _ => Attribute.delimited_skipList).times _).bind fun _ =>
      delimited_pure _

theorem delimited_readMethods (pool : Pool) : (readMethods pool).Delimited :=
  (delimited_word _).bind fun _ => (MethodDecl.delimited_read pool).times _

theorem delimited_readAttributes (pool : Pool) : (readAttributes pool).Delimited :=
  (delimited_word _).bind fun _ => Attribute.delimited_fold _ _ _ _

end ClassUnit

theorem Sections.delimited_read (pool : Pool) : (read pool).Delimited :=
  (delimited_word _).bind fun _ => (delimited_word _).bind fun _ =>
    (delimited_ofExcept _).bind fun _ => (ClassUnit.delimited_readSuper pool).bind fun _ =>
      (ClassUnit.delimited_readInterfaces pool).bind fun _ =>
        ClassUnit.delimited_skipFields.bind fun _ =>
          (ClassUnit.delimited_readMethods pool).bind fun _ =>
            (ClassUnit.delimited_readAttributes pool).bind fun _ => delimited_pure _

theorem FileParts.delimited_read : FileParts.read.Delimited :=
  ClassUnit.delimited_readVersion.bind fun _ => Pool.delimited_read.bind fun pool =>
    (Sections.delimited_read pool).bind fun _ => delimited_pure _

/-- No class file is the beginning of another. Of a file that opens, every shorter beginning ends
inside what was to be read, and every continuation is refused for as many bytes as it has. -/
theorem ofBytes_delimited {bytes : Bytes} {unit : ClassUnit}
    (opened : ClassUnit.ofBytes bytes = .ok unit) :
    (∀ count < bytes.length, ∃ part offset expected available,
        ClassUnit.ofBytes (bytes.take count) = .error (.truncated part offset expected available) ∧
          offset + available = count ∧ available < expected) ∧
      ∀ more, more ≠ [] →
        ClassUnit.ofBytes (bytes ++ more) = .error (.trailingBytes more.length) := by
  rcases ClassUnit.ofBytes_eq_ok_iff.1 opened with ⟨parts, last, read, _⟩
  rcases FileParts.delimited_read read with ⟨stretch, given, takes⟩
  change bytes = stretch ++ [] at given
  rw [List.append_nil] at given
  subst given
  constructor
  · intro count short
    have lost : bytes.drop count ≠ [] := by simpa using short
    rcases takes.ends _ _ (List.take_append_drop count bytes).symm lost with ⟨_, fails, ends⟩
    rcases ends with ⟨part, offset, expected, available, rfl, place, deficit⟩
    refine ⟨part, offset, expected, available, ?_, ?_, deficit⟩
    · rw [ClassUnit.ofBytes_eq, fails]
    · rw [place, List.length_take, Nat.min_eq_left (Nat.le_of_lt short), Nat.zero_add]
  · intro more present
    have refused : more.isEmpty = false := by simpa using present
    rw [ClassUnit.ofBytes_eq, takes.reads more]
    simp only [refused, Bool.false_eq_true, if_false]

/-- A class file in which stretches lie inside one another: a number of two slots, an annotation,
and a method whose code has a line table. -/
def nestedFile : Bytes :=
  ClassDraft.assemble {
    name := "A", annotations := [⟨"B", ["x"]⟩], pool := ⟨[.long 5]⟩
    methods := [{ name := "m", descriptor := "()V", code := some ⟨[.line 7, .returnVoid], true⟩ }] }

theorem ofBytes_delimited_nestedFile :
    (∃ unit, ClassUnit.ofBytes nestedFile = .ok unit) ∧
      (∀ count < nestedFile.length, ∃ part offset expected available,
        ClassUnit.ofBytes (nestedFile.take count) =
            .error (.truncated part offset expected available) ∧
          offset + available = count ∧ available < expected) ∧
      ∀ more, more ≠ [] →
        ClassUnit.ofBytes (nestedFile ++ more) = .error (.trailingBytes more.length) := by
  have opens : (ClassUnit.ofBytes nestedFile).isOk = true := by decide +kernel
  rcases Outcome.exists_of_isOk opens with ⟨unit, opened⟩
  exact ⟨⟨unit, opened⟩, ofBytes_delimited opened⟩

end ApiCoverage.ClassFile
