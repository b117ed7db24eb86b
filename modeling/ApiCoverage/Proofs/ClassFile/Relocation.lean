import ApiCoverage.Proofs.ClassFile.Extent

/-!
# Reading elsewhere in the file

A reader knows how far into the file it stands, but it uses this in faults alone. So when it
succeeds, the bytes that it consumed are read as the same value wherever they stand and whatever
follows them.
This passes from steps to sequences and repetitions, and through the bodies of attributes to the
readers that run inside them.
-/

namespace ApiCoverage.ClassFile

namespace Reader

variable {α β ι : Type}

/-- Whenever a reader succeeds, the bytes that it consumed are read as its value anywhere. -/
def Relocatable (reader : Reader α) : Prop :=
  ∀ ⦃cursor value last⦄, reader cursor = .ok (value, last) →
    ∃ bytes, cursor.rest = bytes ++ last.rest ∧ reader.Reads bytes value

theorem Relocatable.bind {reader : Reader α} {next : α → Reader β} (before : reader.Relocatable)
    (after : ∀ value, (next value).Relocatable) : (reader >>= next).Relocatable := by
  intro cursor result last succeeds
  rcases bind_eq_ok_iff.1 succeeds with ⟨value, later, first, second⟩
  rcases before first with ⟨front, given, reads⟩
  rcases after value second with ⟨back, left, readsBack⟩
  exact ⟨front ++ back, by rw [given, left, List.append_assoc], reads.bind readsBack⟩

theorem relocatable_pure (value : α) : (pure value : Reader α).Relocatable := by
  intro cursor result last succeeds
  cases succeeds
  exact ⟨[], rfl, reads_pure value⟩

theorem relocatable_fail (fault : Fault) : (fail fault : Reader α).Relocatable := by
  intro cursor result last succeeds
  cases succeeds

/-- Where a reader succeeds, another one gives the same. -/
def Below (reader other : Reader α) : Prop :=
  ∀ ⦃cursor step⦄, reader cursor = .ok step → other cursor = .ok step

theorem Below.refl (reader : Reader α) : reader.Below reader :=
  fun _ _ succeeds => succeeds

theorem fail_below (fault : Fault) (reader : Reader α) : (fail fault : Reader α).Below reader :=
  nofun

theorem bind_below_bind (reader : Reader α) {next other : α → Reader β}
    (below : ∀ value, (next value).Below (other value)) :
    (reader >>= next).Below (reader >>= other) := by
  intro cursor step succeeds
  rcases bind_eq_ok_iff.1 succeeds with ⟨value, later, first, second⟩
  exact bind_eq_ok_iff.2 ⟨value, later, first, below value second⟩

/-- A step may use its position as long as its success does not depend on it. -/
theorem relocatable_position_bind {next : Nat → Reader α}
    (after : ∀ offset, (next offset).Relocatable)
    (same : ∀ first second, (next first).Below (next second)) :
    (position >>= next).Relocatable := by
  intro cursor value last succeeds
  rcases after cursor.offset succeeds with ⟨bytes, given, reads⟩
  exact ⟨bytes, given, reads_position_bind fun offset start rest =>
    same cursor.offset offset (reads start rest)⟩

theorem relocatable_take (part : Part) (count : Nat) : (take part count).Relocatable := by
  intro cursor bytes last succeeds
  rcases rest_of_take succeeds with ⟨given, length_eq⟩
  exact ⟨bytes, given, reads_take_of_length length_eq⟩

theorem composes_relocatable : Composes @Relocatable where
  pure := relocatable_pure
  fail := relocatable_fail
  take := relocatable_take
  bind := Relocatable.bind

theorem relocatable_ofExcept (outcome : Except Fault α) : (ofExcept outcome).Relocatable :=
  composes_relocatable.ofExcept outcome

theorem relocatable_byte (part : Part) : (byte part).Relocatable :=
  composes_relocatable.byte part

theorem relocatable_word (part : Part) : (word part).Relocatable :=
  composes_relocatable.word part

theorem relocatable_doubleWord (part : Part) : (doubleWord part).Relocatable :=
  composes_relocatable.doubleWord part

theorem Relocatable.times {reader : Reader α} (member : reader.Relocatable) (count : Nat) :
    (times count reader).Relocatable :=
  composes_relocatable.times member count

/-- The members of a repetition are written one behind the other. -/
theorem exists_items_of_timesOnto {reader : Reader α} {write : ι → Bytes}
    (member : ∀ ⦃cursor value last⦄, reader cursor = .ok (value, last) →
      ∃ item, cursor.rest = write item ++ last.rest)
    {done values : List α} {count : Nat} {cursor last : Cursor}
    (succeeds : timesOnto reader done count cursor = .ok (values, last)) :
    ∃ items : List ι, items.length = count ∧
      cursor.rest = items.flatMap write ++ last.rest := by
  induction count generalizing done cursor with
  | zero =>
      cases succeeds
      exact ⟨[], rfl, rfl⟩
  | succ count ih =>
      rw [timesOnto_succ] at succeeds
      rcases bind_eq_ok_iff.1 succeeds with ⟨value, later, first, others⟩
      rcases member first with ⟨item, given⟩
      rcases ih others with ⟨items, rfl, left⟩
      exact ⟨item :: items, rfl, by rw [given, left, List.flatMap_cons, List.append_assoc]⟩

theorem exists_items_of_times {reader : Reader α} {write : ι → Bytes}
    (member : ∀ ⦃cursor value last⦄, reader cursor = .ok (value, last) →
      ∃ item, cursor.rest = write item ++ last.rest)
    {values : List α} {count : Nat} {cursor last : Cursor}
    (succeeds : times count reader cursor = .ok (values, last)) :
    ∃ items : List ι, items.length = count ∧
      cursor.rest = items.flatMap write ++ last.rest :=
  exists_items_of_timesOnto member succeeds

/-! ## Up to faults -/

/-- Up to faults, what a reader makes of bytes, wherever they stand and whatever follows them. -/
def Gives (reader : Reader α) (bytes : Bytes) (outcome : Option α) : Prop :=
  ∀ offset rest, (reader ⟨offset, bytes ++ rest⟩).toOption =
    outcome.map fun value => (value, ⟨offset + bytes.length, rest⟩)

theorem gives_some_iff {reader : Reader α} {bytes : Bytes} {value : α} :
    reader.Gives bytes (some value) ↔ reader.Reads bytes value :=
  forall₂_congr fun _ _ => Outcome.toOption_eq_some_iff

theorem gives_ofExcept (outcome : Except Fault α) :
    (ofExcept outcome).Gives [] outcome.toOption := by
  intro offset rest
  cases outcome <;> rfl

theorem Gives.bind {reader : Reader α} {next : α → Reader β} {first second : Bytes}
    {outcome : Option α} {result : α → Option β} (before : reader.Gives first outcome)
    (after : ∀ value, (next value).Gives second (result value)) :
    (reader >>= next).Gives (first ++ second) (outcome.bind result) := by
  intro offset rest
  have step := before offset (second ++ rest)
  rw [List.append_assoc, bind_apply]
  cases given : reader ⟨offset, first ++ (second ++ rest)⟩ with
  | error fault =>
      rw [given] at step
      have fails : outcome = none := Option.map_eq_none_iff.1 step.symm
      rw [fails]
      rfl
  | ok reached =>
      rw [given] at step
      rcases Option.map_eq_some_iff.1 step.symm with ⟨value, succeeds, rfl⟩
      rw [succeeds, List.length_append, ← Nat.add_assoc]
      exact after value _ _

/-- A step that succeeds leaves the outcome to the step after it. -/
theorem Reads.bind_gives {reader : Reader α} {next : α → Reader β} {first second : Bytes}
    {value : α} {outcome : Option β} (before : reader.Reads first value)
    (after : (next value).Gives second outcome) :
    (reader >>= next).Gives (first ++ second) outcome := by
  intro offset rest
  rw [List.append_assoc, before.bind_apply, after]
  simp [Nat.add_assoc]

/-- What is looked up behind a step consumes nothing. -/
theorem Reads.bind_ofExcept {reader : Reader α} {bytes : Bytes} {value : α}
    (reads : reader.Reads bytes value) (find : α → Except Fault β) :
    (reader >>= fun value => ofExcept (find value)).Gives bytes (find value).toOption := by
  have both : (reader >>= fun value => ofExcept (find value)).Gives (bytes ++ []) _ :=
    reads.bind_gives (gives_ofExcept (find value))
  rwa [List.append_nil] at both

/-- A step may use its position as long as what it makes of the bytes does not depend on it. -/
theorem gives_position_bind {next : Nat → Reader α} {bytes : Bytes} {outcome : Option α}
    (gives : ∀ offset, (next offset).Gives bytes outcome) :
    (position >>= next).Gives bytes outcome :=
  fun offset rest => gives offset offset rest

theorem Gives.bind_pure {reader : Reader α} {bytes : Bytes} {outcome : Option α}
    (gives : reader.Gives bytes outcome) (next : α → β) :
    (reader >>= fun value => pure (next value)).Gives bytes (outcome.map next) := by
  have both := gives.bind fun value => gives_some_iff.2 (reads_pure (next value))
  rw [List.append_nil] at both
  exact Option.map_eq_bind.symm ▸ both

theorem gives_timesOnto {reader : Reader α} {write : ι → Bytes} {meaning : ι → Option α}
    (member : ∀ item, reader.Gives (write item) (meaning item)) (done : List α) (items : List ι) :
    (timesOnto reader done items.length).Gives (items.flatMap write)
      ((items.mapM meaning).map (done.reverse ++ ·)) := by
  induction items generalizing done with
  | nil =>
      simp only [List.mapM_nil, Option.pure_def, Option.map_some, List.append_nil]
      exact gives_some_iff.2 (reads_pure done.reverse)
  | cons item items ih =>
      rw [List.length_cons, timesOnto_succ, List.flatMap_cons]
      have both := (member item).bind fun value => ih (value :: done)
      simp only [List.reverse_cons, List.append_assoc, List.singleton_append] at both
      simp only [List.mapM_cons, Option.bind_eq_bind, Option.map_bind, Option.pure_def]
      convert both using 3 with value
      cases items.mapM meaning <;> rfl

/-- Laid-out items are repeated as the reader takes each of them. -/
theorem gives_times {reader : Reader α} {write : ι → Bytes} {meaning : ι → Option α}
    (member : ∀ item, reader.Gives (write item) (meaning item)) (items : List ι) :
    (times items.length reader).Gives (items.flatMap write) (items.mapM meaning) := by
  have given := gives_timesOnto member [] items
  simpa only [times, List.reverse_nil, List.nil_append, Option.map_id'] using given

theorem reads_times_of_forall {reader : Reader α} {write : ι → Bytes} {value : α}
    (member : ∀ item, reader.Reads (write item) value) (items : List ι) :
    (times items.length reader).Reads (items.flatMap write) (items.map fun _ => value) := by
  have values : items.mapM (fun _ => some value) = some (items.map fun _ => value) :=
    List.mapM_pure
  have given := gives_times (fun item => gives_some_iff.2 (member item)) items
  exact gives_some_iff.1 (values ▸ given)

/-- A reader is relocatable if it only succeeds on bytes that give the same everywhere. -/
theorem relocatable_of_gives {reader : Reader α}
    (given : ∀ ⦃cursor value last⦄, reader cursor = .ok (value, last) →
      ∃ bytes outcome, cursor.rest = bytes ++ last.rest ∧ reader.Gives bytes outcome) :
    reader.Relocatable := by
  intro cursor value last succeeds
  rcases given succeeds with ⟨bytes, outcome, split, gives⟩
  have step := gives cursor.offset last.rest
  rw [← split, succeeds] at step
  rcases Option.map_eq_some_iff.1 step.symm with ⟨_, same, equal⟩
  obtain rfl := congrArg Prod.fst equal
  exact ⟨bytes, split, gives_some_iff.1 (same ▸ gives)⟩

/-- Up to faults, what a reader makes of the front of a stretch. -/
def outcome? (reader : Reader α) (stretch : Bytes) : Option α :=
  (reader ⟨0, stretch⟩).toOption.map Prod.fst

/-- What a reader makes of the body of an attribute does not depend on where the body stands. -/
theorem Relocatable.toOption_parse {reader : Reader α} (relocatable : reader.Relocatable)
    (name : String) (offset : Nat) (body : Bytes) :
    (Attribute.parse ⟨name, ⟨offset, body⟩⟩ reader).toOption = reader.outcome? body := by
  have carried : ∀ first second value, (reader ⟨first, body⟩).toOption.map Prod.fst = some value →
      (reader ⟨second, body⟩).toOption.map Prod.fst = some value := by
    intro first second value given
    rcases Option.map_eq_some_iff.1 given with ⟨⟨_, last⟩, succeeds, rfl⟩
    rcases relocatable (Outcome.toOption_eq_some_iff.1 succeeds) with ⟨bytes, split, reads⟩
    change body = _ at split
    rw [split, reads]
    rfl
  rw [Attribute.parse, Outcome.toOption_map]
  exact Option.ext fun value => ⟨carried offset 0 value, carried 0 offset value⟩

end Reader

open Reader

theorem Pool.relocatable_read : Pool.read.Relocatable :=
  holds_read composes_relocatable

/-! ## Annotations and line tables -/

namespace AnnotationUse

theorem relocatable_skipValue (levels : Nat) : (skipValue levels).Relocatable := by
  induction levels with
  | zero => exact relocatable_position_bind (fun _ => relocatable_fail _) fun _ _ => fail_below _ _
  | succ levels ih =>
      refine relocatable_position_bind (fun offset => (relocatable_byte _).bind fun tag => ?_)
        fun first second => bind_below_bind _ fun tag => ?_
      · split
        case h_12 =>
          exact (relocatable_take _ _).bind fun _ => (relocatable_word _).bind fun count =>
            (((relocatable_take _ _).bind fun _ => ih).times _).bind fun _ => relocatable_pure _
        case h_13 =>
          exact (relocatable_word _).bind fun count => (ih.times _).bind fun _ =>
            relocatable_pure _
        case h_14 => exact relocatable_fail _
        all_goals exact (relocatable_take _ _).bind fun _ => relocatable_pure _
      · split
        case h_14 => exact fail_below _ _
        all_goals exact .refl _

theorem relocatable_readList (pool : Pool) : (readList pool).Relocatable :=
  (relocatable_word _).bind fun _ => .times
    ((relocatable_word _).bind fun _ => (relocatable_ofExcept _).bind fun _ =>
      (relocatable_word _).bind fun _ => (Relocatable.times
        ((relocatable_word _).bind fun _ => (relocatable_ofExcept _).bind fun _ =>
          (relocatable_skipValue _).bind fun _ => relocatable_pure _) _).bind fun _ =>
        relocatable_pure _) _

theorem relocatable_readParameters (pool : Pool) : (readParameters pool).Relocatable :=
  (relocatable_byte _).bind fun _ => (relocatable_readList pool).times _

end AnnotationUse

theorem LineEntry.relocatable_readTable : readTable.Relocatable :=
  (relocatable_word _).bind fun _ => .times
    ((relocatable_word _).bind fun _ => (relocatable_word _).bind fun _ => relocatable_pure _) _

end ApiCoverage.ClassFile
