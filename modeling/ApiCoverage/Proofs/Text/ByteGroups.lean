import ApiCoverage.Proofs.Text.ModifiedUtf8

/-!
# Texts as groups of bytes

The variant encoding of class files is described by its groups: a byte below 128 is a group by itself,
and the other groups have two or three bytes and need not be the shortest ones. The decoder accepts the
standard encoding of a text and every sequence of groups whose code units are those of a text. Where a
byte sequence can be read in both ways, both give the same text.

The groups are found by a loop over positions. Each of its rounds takes one group and looks at no byte
behind it, so that it ends after as many rounds as there are bytes at most.
-/

namespace ApiCoverage.Text.ModifiedUtf8

/-! ## Groups -/

/-- A byte that stands in a group but does not begin one. -/
def Continues (byte : UInt8) : Prop :=
  0x80 ≤ byte.toNat ∧ byte.toNat < 0xC0

/-- Some bytes are a group for a code unit. -/
inductive GroupOf : Bytes → UInt16 → Prop where
  | one {byte : UInt8} (low : byte.toNat < 0x80) : GroupOf [byte] (UInt16.ofNat byte.toNat)
  | two {lead second : UInt8} (leads : 0xC0 ≤ lead.toNat ∧ lead.toNat < 0xE0)
      (continues : Continues second) :
      GroupOf [lead, second]
        (UInt16.ofNat ((lead.toNat - 0xC0) * 0x40 + (second.toNat - 0x80)))
  | three {lead second third : UInt8} (leads : 0xE0 ≤ lead.toNat ∧ lead.toNat < 0xF0)
      (continues : Continues second) (closes : Continues third) :
      GroupOf [lead, second, third]
        (UInt16.ofNat ((lead.toNat - 0xE0) * 0x1000 + (second.toNat - 0x80) * 0x40 +
          (third.toNat - 0x80)))

/-- A byte sequence falls into groups for these code units. -/
inductive SplitsInto : Bytes → List UInt16 → Prop where
  | nil : SplitsInto [] []
  | cons {group rest : Bytes} {unit : UInt16} {units : List UInt16} (front : GroupOf group unit)
      (back : SplitsInto rest units) : SplitsInto (group ++ rest) (unit :: units)

section Tests

variable {byte lead second third : UInt8}

theorem isSingle_iff_lt : (byte &&& 0x80 == 0) = true ↔ byte.toNat < 0x80 := by
  rw [isSingle_iff]
  omega

theorem leadsTwo_iff_bounds :
    (byte &&& 0xE0 == 0xC0) = true ↔ 0xC0 ≤ byte.toNat ∧ byte.toNat < 0xE0 := by
  rw [leadsTwo_iff]
  omega

theorem leadsThree_iff_bounds :
    (byte &&& 0xF0 == 0xE0) = true ↔ 0xE0 ≤ byte.toNat ∧ byte.toNat < 0xF0 := by
  rw [leadsThree_iff]
  omega

theorem not_isSingle (leads : 0xC0 ≤ lead.toNat) : ¬ (lead &&& 0x80 == 0) = true := by
  rw [isSingle_iff_lt]
  omega

theorem not_leadsTwo (leads : 0xE0 ≤ lead.toNat) : ¬ (lead &&& 0xE0 == 0xC0) = true := by
  rw [leadsTwo_iff_bounds]
  omega

theorem isContinuation_iff_continues : isContinuation byte = true ↔ Continues byte := by
  rw [isContinuation_iff, Continues]
  omega

/-- The low bits of a continuation byte are what it exceeds the least one by. -/
theorem continuationBits_eq (continues : Continues byte) :
    continuationBits byte = byte.toNat - 0x80 := by
  rw [Continues] at continues
  rw [continuationBits]
  omega

theorem leadBits_two (leads : 0xC0 ≤ lead.toNat ∧ lead.toNat < 0xE0) :
    lead.toNat % 0x20 = lead.toNat - 0xC0 := by
  omega

theorem leadBits_three (leads : 0xE0 ≤ lead.toNat ∧ lead.toNat < 0xF0) :
    lead.toNat % 0x10 = lead.toNat - 0xE0 := by
  omega

end Tests

/-- The reader takes a group as its code unit. -/
theorem GroupOf.unitsOnto_append {group : Bytes} {unit : UInt16} (front : GroupOf group unit)
    (done : List UInt16) (rest : Bytes) :
    unitsOnto done (group ++ rest) = unitsOnto (unit :: done) rest := by
  cases front with
  | one low =>
      rw [List.singleton_append, unitsOnto.eq_def]
      simp only [if_pos (isSingle_iff_lt.2 low)]
  | two leads continues =>
      rw [List.cons_append, List.singleton_append, unitsOnto.eq_def]
      simp only [if_neg (not_isSingle leads.1), if_pos (leadsTwo_iff_bounds.2 leads),
        if_pos (isContinuation_iff_continues.2 continues), leadBits_two leads,
        continuationBits_eq continues]
  | @three lead _ _ leads continues closes =>
      have both := Bool.and_eq_true_iff.2 ⟨isContinuation_iff_continues.2 continues,
        isContinuation_iff_continues.2 closes⟩
      rw [List.cons_append, List.cons_append, List.singleton_append, unitsOnto.eq_def]
      have beyond : 0xC0 ≤ lead.toNat := by omega
      simp only [if_neg (not_isSingle beyond), if_neg (not_leadsTwo leads.1),
        if_pos (leadsThree_iff_bounds.2 leads), if_pos both, leadBits_three leads,
        continuationBits_eq continues, continuationBits_eq closes]

/-- Where something is read, a group stands in front. -/
theorem exists_group_of_unitsOnto {done units : List UInt16} {lead : UInt8} {rest : Bytes}
    (read : unitsOnto done (lead :: rest) = some units) :
    ∃ group unit back, lead :: rest = group ++ back ∧ GroupOf group unit ∧
      unitsOnto (unit :: done) back = some units := by
  rw [unitsOnto.eq_def] at read
  dsimp only at read
  split at read
  · next single => exact ⟨[lead], _, rest, rfl, .one (isSingle_iff_lt.1 single), read⟩
  split at read
  · next leads =>
      rw [leadsTwo_iff_bounds] at leads
      split at read
      · next second back =>
          split at read
          · next continues =>
              rw [isContinuation_iff_continues] at continues
              rw [leadBits_two leads, continuationBits_eq continues] at read
              exact ⟨[lead, second], _, back, rfl, .two leads continues, read⟩
          · cases read
      · cases read
  split at read
  · next leads =>
      rw [leadsThree_iff_bounds] at leads
      split at read
      · next second third back =>
          split at read
          · next both =>
              rw [Bool.and_eq_true, isContinuation_iff_continues, isContinuation_iff_continues] at both
              rw [leadBits_three leads, continuationBits_eq both.1, continuationBits_eq both.2] at read
              exact ⟨[lead, second, third], _, back, rfl, .three leads both.1 both.2, read⟩
          · cases read
      · cases read
  · cases read

theorem GroupOf.length_pos {group : Bytes} {unit : UInt16} (front : GroupOf group unit) :
    0 < group.length := by
  cases front <;> simp

/-- Bytes that are read fall into groups for the units that are read from them. -/
theorem exists_of_unitsOnto {done units : List UInt16} {bytes : Bytes}
    (read : unitsOnto done bytes = some units) :
    ∃ rest, units = done.reverse ++ rest ∧ SplitsInto bytes rest := by
  cases bytes with
  | nil =>
      cases read
      exact ⟨[], by simp, .nil⟩
  | cons lead behind =>
      obtain ⟨group, unit, back, whole, front, later⟩ := exists_group_of_unitsOnto read
      -- A group is never empty, so the recursion on what stands behind it ends.
      have shorter : back.length < (lead :: behind).length := by
        rw [whole, List.length_append]
        exact Nat.lt_add_of_pos_left front.length_pos
      obtain ⟨units, rfl, split⟩ := exists_of_unitsOnto later
      rw [whole]
      exact ⟨unit :: units, by simp, .cons front split⟩
  termination_by bytes.length

theorem SplitsInto.unitsOnto_eq {bytes : Bytes} {units : List UInt16}
    (split : SplitsInto bytes units) (done : List UInt16) :
    unitsOnto done bytes = some (done.reverse ++ units) := by
  induction split generalizing done with
  | nil => simp [unitsOnto]
  | cons front _ ih =>
      rw [front.unitsOnto_append, ih]
      simp

/-- The reader finds the code units of a sequence of groups, and of nothing else. -/
theorem unitsOnto_eq_some_iff {bytes : Bytes} {units : List UInt16} :
    unitsOnto [] bytes = some units ↔ SplitsInto bytes units := by
  constructor
  · intro read
    obtain ⟨rest, rfl, split⟩ := exists_of_unitsOnto read
    exact split
  · intro split
    exact split.unitsOnto_eq []

/-- The group reader gives a text exactly if the bytes fall into groups for its code units. -/
theorem decodeGroups?_eq_some_iff {bytes : Bytes} {text : String} :
    decodeGroups? bytes = some text ↔ SplitsInto bytes (Utf16.encode text.toList) := by
  simp only [decodeGroups?, Option.bind_eq_bind, Option.bind_eq_some_iff, Option.pure_def,
    Option.some.injEq, unitsOnto_eq_some_iff, Utf16.decode?_eq_some_iff]
  constructor
  · rintro ⟨units, split, chars, rfl, rfl⟩
    rwa [String.toList_ofList]
  · intro split
    exact ⟨_, split, _, rfl, String.ofList_toList⟩

/-! ## The loop over positions -/

/-- Where the loop stands: the position of the next byte, and the units that are read. -/
structure Cursor where
  position : Nat
  units : List UInt16
  deriving DecidableEq, Repr

/-- The loop before its first round. -/
def Cursor.start : Cursor :=
  ⟨0, []⟩

/-- The cursor behind a group of so many bytes. -/
def Cursor.advance (cursor : Cursor) (width code : Nat) : Cursor :=
  ⟨cursor.position + width, cursor.units ++ [UInt16.ofNat code]⟩

/-- The payload bits of the continuation byte at a position. -/
def continuationAt? (bytes : Bytes) (position : Nat) : Option Nat := do
  let byte ← bytes[position]?
  if isContinuation byte then some (continuationBits byte) else none

/-- One round of the loop. There is none at the end of the bytes, and none where no group begins. -/
def round? (bytes : Bytes) (cursor : Cursor) : Option Cursor := do
  let lead ← bytes[cursor.position]?
  if lead &&& 0x80 == 0 then
    return cursor.advance 1 lead.toNat
  else if lead &&& 0xE0 == 0xC0 then
    let second ← continuationAt? bytes (cursor.position + 1)
    return cursor.advance 2 (lead.toNat % 0x20 * 0x40 + second)
  else if lead &&& 0xF0 == 0xE0 then
    let second ← continuationAt? bytes (cursor.position + 1)
    let third ← continuationAt? bytes (cursor.position + 2)
    return cursor.advance 3 (lead.toNat % 0x10 * 0x1000 + second * 0x40 + third)
  else none

/-- So many rounds of the loop. -/
def rounds? (bytes : Bytes) : Nat → Option Cursor
  | 0 => some .start
  | count + 1 => (rounds? bytes count).bind (round? bytes)

theorem continuationAt?_eq_some_iff {bytes : Bytes} {position bits : Nat} :
    continuationAt? bytes position = some bits ↔
      ∃ byte, bytes[position]? = some byte ∧ Continues byte ∧ byte.toNat - 0x80 = bits := by
  simp only [continuationAt?, Option.bind_eq_bind, Option.bind_eq_some_iff,
    Option.ite_none_right_eq_some, isContinuation_iff_continues, Option.some.injEq]
  refine exists_congr fun byte => and_congr_right fun _ => and_congr_right fun continues => ?_
  rw [continuationBits_eq continues]

theorem drop_eq_cons_of_getElem? {bytes : Bytes} {position : Nat} {byte : UInt8}
    (found : bytes[position]? = some byte) :
    bytes.drop position = byte :: bytes.drop (position + 1) := by
  obtain ⟨inside, rfl⟩ := List.getElem?_eq_some_iff.1 found
  exact List.drop_eq_getElem_cons inside

section Round

variable {bytes group rest : Bytes} {unit : UInt16} {cursor next : Cursor}

/-- A group at the cursor is taken in one round. -/
theorem GroupOf.round?_eq (front : GroupOf group unit)
    (behind : bytes.drop cursor.position = group ++ rest) :
    round? bytes cursor = some ⟨cursor.position + group.length, cursor.units ++ [unit]⟩ := by
  have byteAt : ∀ offset, bytes[cursor.position + offset]? = (group ++ rest)[offset]? := by
    intro offset
    rw [← behind, List.getElem?_drop]
  have leadAt := byteAt 0
  rw [Nat.add_zero] at leadAt
  cases front with
  | one low =>
      rw [round?, leadAt]
      exact if_pos (isSingle_iff_lt.2 low)
  | @two lead second leads continues =>
      have secondAt := continuationAt?_eq_some_iff.2 ⟨second, byteAt 1, continues, rfl⟩
      rw [round?, leadAt, secondAt, ← leadBits_two leads]
      exact (if_neg (not_isSingle leads.1)).trans (if_pos (leadsTwo_iff_bounds.2 leads))
  | @three lead second third leads continues closes =>
      have beyond : 0xC0 ≤ lead.toNat := by omega
      have secondAt := continuationAt?_eq_some_iff.2 ⟨second, byteAt 1, continues, rfl⟩
      have thirdAt := continuationAt?_eq_some_iff.2 ⟨third, byteAt 2, closes, rfl⟩
      rw [round?, leadAt, secondAt, thirdAt, ← leadBits_three leads]
      exact (if_neg (not_isSingle beyond)).trans <|
        (if_neg (not_leadsTwo leads.1)).trans (if_pos (leadsThree_iff_bounds.2 leads))

/-- A round takes a group. -/
theorem exists_of_round? (advanced : round? bytes cursor = some next) :
    ∃ group unit rest, bytes.drop cursor.position = group ++ rest ∧ GroupOf group unit ∧
      next = ⟨cursor.position + group.length, cursor.units ++ [unit]⟩ := by
  simp only [round?, Option.bind_eq_bind, Option.bind_eq_some_iff, Option.pure_def] at advanced
  obtain ⟨lead, leadAt, taken⟩ := advanced
  have behind := drop_eq_cons_of_getElem? leadAt
  split at taken
  · next single =>
      cases taken
      exact ⟨_, _, _, behind, .one (isSingle_iff_lt.1 single), rfl⟩
  split at taken
  · next leads =>
      simp only [Option.bind_eq_some_iff, continuationAt?_eq_some_iff, Option.some.injEq] at taken
      obtain ⟨_, ⟨second, secondAt, continues, rfl⟩, rfl⟩ := taken
      rw [leadsTwo_iff_bounds] at leads
      rw [drop_eq_cons_of_getElem? secondAt] at behind
      rw [leadBits_two leads]
      exact ⟨_, _, _, behind, .two leads continues, rfl⟩
  split at taken
  · next leads =>
      simp only [Option.bind_eq_some_iff, continuationAt?_eq_some_iff, Option.some.injEq] at taken
      obtain ⟨_, ⟨second, secondAt, continues, rfl⟩, taken⟩ := taken
      obtain ⟨_, ⟨third, thirdAt, closes, rfl⟩, rfl⟩ := taken
      rw [leadsThree_iff_bounds] at leads
      rw [drop_eq_cons_of_getElem? secondAt, drop_eq_cons_of_getElem? thirdAt] at behind
      rw [leadBits_three leads]
      exact ⟨_, _, _, behind, .three leads continues closes, rfl⟩
  · cases taken

/-- A round moves on, and not beyond the end. -/
theorem lt_and_le_of_round? (advanced : round? bytes cursor = some next) :
    cursor.position < next.position ∧ next.position ≤ bytes.length := by
  obtain ⟨group, unit, rest, behind, front, rfl⟩ := exists_of_round? advanced
  have left := congrArg List.length behind
  have filled := front.length_pos
  rw [List.length_drop, List.length_append] at left
  constructor
  · show cursor.position < cursor.position + group.length
    omega
  · show cursor.position + group.length ≤ bytes.length
    omega

/-- A round depends on no byte behind the group that it takes. -/
theorem round?_take_append (advanced : round? bytes cursor = some next) (more : Bytes) :
    round? (bytes.take next.position ++ more) cursor = some next := by
  obtain ⟨-, inside⟩ := lt_and_le_of_round? advanced
  obtain ⟨group, unit, rest, behind, front, rfl⟩ := exists_of_round? advanced
  have kept : (bytes.take (cursor.position + group.length) ++ more).drop cursor.position =
      group ++ more := by
    have reached : cursor.position ≤ (bytes.take (cursor.position + group.length)).length := by
      rw [List.length_take_of_le inside]
      exact Nat.le_add_right _ _
    rw [List.drop_append_of_le_length reached, List.drop_take, Nat.add_sub_cancel_left, behind,
      List.take_left]
  exact front.round?_eq kept

/-- What the reader finds behind a group is what it finds from the group on. -/
theorem unitsOnto_of_round? (advanced : round? bytes cursor = some next) :
    unitsOnto cursor.units.reverse (bytes.drop cursor.position) =
      unitsOnto next.units.reverse (bytes.drop next.position) := by
  obtain ⟨group, unit, rest, behind, front, rfl⟩ := exists_of_round? advanced
  have later : bytes.drop (cursor.position + group.length) = rest := by
    rw [← List.drop_drop, behind, List.drop_left]
  rw [behind, front.unitsOnto_append, later, List.reverse_append]
  rfl

/-- Where there is no further round, the reader has found the units so far if the bytes are at their
end, and finds nothing otherwise. -/
theorem unitsOnto_of_round?_eq_none (stopped : round? bytes cursor = none) :
    unitsOnto cursor.units.reverse (bytes.drop cursor.position) =
      if bytes.length ≤ cursor.position then some cursor.units else none := by
  split
  · next ended => rw [List.drop_eq_nil_of_le ended, unitsOnto, List.reverse_reverse]
  · next inside =>
      rw [Option.eq_none_iff_forall_ne_some]
      intro units read
      obtain ⟨found, -, split⟩ := exists_of_unitsOnto read
      generalize left : bytes.drop cursor.position = behind at split
      cases split with
      | nil => exact inside (List.drop_eq_nil_iff.1 left)
      | cons front _ =>
          rw [front.round?_eq left] at stopped
          cases stopped

end Round

section Rounds

variable {bytes : Bytes} {count : Nat} {cursor : Cursor}

/-- Every round takes a byte at least, and none goes beyond the end. -/
theorem le_and_le_of_rounds? (run : rounds? bytes count = some cursor) :
    count ≤ cursor.position ∧ cursor.position ≤ bytes.length := by
  induction count generalizing cursor with
  | zero =>
      cases run
      exact ⟨Nat.le_refl _, Nat.zero_le _⟩
  | succ count ih =>
      obtain ⟨before, earlier, advanced⟩ := Option.bind_eq_some_iff.1 run
      have moved := lt_and_le_of_round? advanced
      have reached := ih earlier
      exact ⟨by omega, moved.2⟩

/-- No round changes what the reader finds in the end. -/
theorem unitsOnto_of_rounds? (run : rounds? bytes count = some cursor) :
    unitsOnto [] bytes = unitsOnto cursor.units.reverse (bytes.drop cursor.position) := by
  induction count generalizing cursor with
  | zero =>
      cases run
      rfl
  | succ count ih =>
      obtain ⟨before, earlier, advanced⟩ := Option.bind_eq_some_iff.1 run
      rw [ih earlier, unitsOnto_of_round? advanced]

/-- If there are not so many rounds, one of the earlier ones is the last. -/
theorem exists_last_of_rounds?_eq_none (past : rounds? bytes count = none) :
    ∃ done last, rounds? bytes done = some last ∧ round? bytes last = none := by
  induction count with
  | zero => cases past
  | succ count ih =>
      cases run : rounds? bytes count with
      | none => exact ih run
      | some last =>
          rw [rounds?, run] at past
          exact ⟨count, last, run, past⟩

/-- The loop ends. -/
theorem exists_last (bytes : Bytes) :
    ∃ count last, rounds? bytes count = some last ∧ round? bytes last = none := by
  -- One round more than there are bytes would stand beyond the end.
  have past : rounds? bytes (bytes.length + 1) = none := by
    rw [Option.eq_none_iff_forall_ne_some]
    intro cursor run
    have bounds := le_and_le_of_rounds? run
    omega
  exact exists_last_of_rounds?_eq_none past

/-- The group reader gives what the loop has read at the end of the bytes, and nothing if the loop ends
elsewhere. -/
theorem decodeGroups?_of_last {last : Cursor} (run : rounds? bytes count = some last)
    (stopped : round? bytes last = none) :
    decodeGroups? bytes = if last.position = bytes.length then
      (Utf16.decode? last.units).map String.ofList else none := by
  have inside := (le_and_le_of_rounds? run).2
  have ended : bytes.length ≤ last.position ↔ last.position = bytes.length := by omega
  rw [decodeGroups?, unitsOnto_of_rounds? run, unitsOnto_of_round?_eq_none stopped]
  simp only [ended]
  split
  · exact Option.map_eq_bind.symm
  · rfl

end Rounds

/-! ## Both readings -/

theorem decodeStandard?_eq_some_iff {bytes : Bytes} {text : String} :
    decodeStandard? bytes = some text ↔ bytes = Bytes.ofText text := by
  constructor
  · exact eq_ofText_of_decodeStandard?
  · rintro rfl
    exact Bytes.decodeStandard?_ofText text

/-- If a byte sequence is the standard encoding of one text and falls into the groups of another, the
two are the same. -/
theorem eq_of_ofText_of_splitsInto {bytes : Bytes} {first second : String}
    (standard : bytes = Bytes.ofText first)
    (split : SplitsInto bytes (Utf16.encode second.toList)) : first = second := by
  rw [← decodeGroups?_eq_some_iff, standard] at split
  exact (eq_of_decodeGroups?_ofText split).symm

theorem decode?_eq_some_iff {bytes : Bytes} {text : String} :
    decode? bytes = some text ↔
      bytes = Bytes.ofText text ∨ SplitsInto bytes (Utf16.encode text.toList) := by
  rw [decode?, ← decodeStandard?_eq_some_iff]
  cases standard : decodeStandard? bytes with
  | none => simp [decodeGroups?_eq_some_iff]
  | some other =>
      constructor
      · exact .inl
      · rintro (same | split)
        · exact same
        · rw [eq_of_ofText_of_splitsInto (decodeStandard?_eq_some_iff.1 standard) split]

/-- What the decoder of class file constants makes of a byte sequence. -/
structure ReadingsAgree (bytes : Bytes) : Prop where
  /-- It accepts standard encodings and sequences of groups, and nothing else. -/
  accepted : ∀ text, decode? bytes = some text ↔
    bytes = Bytes.ofText text ∨ SplitsInto bytes (Utf16.encode text.toList)
  /-- Where both readings are possible, they are the same. -/
  single : ∀ first second, bytes = Bytes.ofText first →
    SplitsInto bytes (Utf16.encode second.toList) → first = second
  /-- Trying the standard reading first changes no answer of the group reader. -/
  kept : ∀ text, decodeGroups? bytes = some text → decode? bytes = some text
  /-- The loop never stands beyond the end, and it has as many rounds as there are bytes at most. -/
  inside : ∀ count cursor, rounds? bytes count = some cursor →
    count ≤ cursor.position ∧ cursor.position ≤ bytes.length
  /-- A round depends on no byte behind the group that it takes. -/
  within : ∀ cursor next more, round? bytes cursor = some next →
    round? (bytes.take next.position ++ more) cursor = some next
  /-- The loop ends, and the group reader gives what it has read then. -/
  ends : ∃ count last, rounds? bytes count = some last ∧ round? bytes last = none ∧
    decodeGroups? bytes = if last.position = bytes.length then
      (Utf16.decode? last.units).map String.ofList else none

/-- Every byte sequence is read the same way in either form, by a loop that stays inside it. -/
theorem readingsAgree (bytes : Bytes) : ReadingsAgree bytes where
  accepted _ := decode?_eq_some_iff
  single _ _ := eq_of_ofText_of_splitsInto
  kept text read := by
    rw [decodeGroups?_eq_some_iff] at read
    exact decode?_eq_some_iff.2 (.inr read)
  inside _ _ := le_and_le_of_rounds?
  within _ _ more advanced := round?_take_append advanced more
  ends := by
    obtain ⟨count, last, run, stopped⟩ := exists_last bytes
    exact ⟨count, last, run, stopped, decodeGroups?_of_last run stopped⟩

end ApiCoverage.Text.ModifiedUtf8
