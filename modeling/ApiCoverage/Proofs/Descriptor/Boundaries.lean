import ApiCoverage.Proofs.Descriptor.Element
import ApiCoverage.Proofs.Text.Slices

/-!
# Reading a descriptor by byte offsets

A descriptor can be read without taking its text apart, by a byte offset that moves on. Single bytes are
looked at, and slices are made for class names and for letters that stand for no type. A slice that would
begin or end inside of a character is an outcome of its own, different from a signature and from a fault.
The main statement says that this outcome never comes up, that reading by offsets gives what reading gives,
and that the offsets in faults are those of characters of the descriptor.
-/

namespace ApiCoverage.Descriptor

open Text (StandsAt byteAt? findLetter? sliceFrom? sliceTo?)

/-- The letters with which a type can begin. -/
def typeLetters : List Char :=
  '[' :: 'L' :: Primitive.all.map Primitive.code

/-- A fault names the descriptor, and the offset in it is that of a character boundary; an unknown code is
the character that stands there. -/
def Fault.PointsInto (descriptor : String) : Fault → Prop
  | truncated text => text = descriptor
  | unknownCode text code offset =>
      text = descriptor ∧ code ∉ typeLetters ∧
        ∃ (place : descriptor.Pos) (inside : place ≠ descriptor.endPos),
          place.offset.byteIdx = offset ∧ place.get inside = code
  | unexpected text _ offset =>
      text = descriptor ∧ ∃ place : descriptor.Pos, place.offset.byteIdx = offset
  | misplacedVoid text => text = descriptor
  -- Reading alone has no part in these.
  | unresolved _ => False
  | invalidTypeName _ => False

/-! ## Looking at offsets -/

/-- What comes of reading at a byte offset: a fault, or a value and the offset behind it. There is no
answer where a slice would not keep to character boundaries. -/
abbrev Sight (α : Type) :=
  Option (Except Fault (α × Nat))

/-- Goes on with the value and the offset behind it, if there are any. -/
def Sight.andThen {α β : Type} (sight : Sight α) (next : α → Nat → Option (Except Fault β)) :
    Option (Except Fault β) :=
  match sight with
  | none => none
  | some (.error fault) => some (.error fault)
  | some (.ok (value, offset)) => next value offset

/-- Reads a class name at an offset and asks the context for it. -/
def classNameAt (context : Context) (descriptor : String) (offset : Nat) : Sight JvmType :=
  (sliceFrom? descriptor offset).bind fun rest =>
    match findLetter? rest ';' with
    | none => some (.error (.truncated descriptor))
    | some distance =>
        if distance = 0 then some (.error (.unexpected descriptor .className offset))
        else
          (sliceTo? rest distance).bind fun name =>
            some ((context (String.ofList (dotted name.toList))).map fun type =>
              (type, offset + distance + 1))

/-- Reads a letter at an offset, where a byte was seen. -/
def letterAt (descriptor : String) (offset : Nat) (byte : UInt8) : Sight JvmType :=
  (sliceFrom? descriptor offset).bind fun rest =>
    let letter := rest.toList.headD (Char.ofUInt8 byte)
    match Primitive.ofCode? letter with
    | none => some (.error (.unknownCode descriptor letter offset))
    | some primitive => some (.ok (.primitive primitive, offset + 1))

/-- Reads a type at an offset. -/
def typeAt (context : Context) (descriptor : String) (offset : Nat) : Sight JvmType :=
  match _seen : byteAt? descriptor offset with
  | none => some (.error (.truncated descriptor))
  | some byte =>
      if byte = '['.toUInt8 then
        (typeAt context descriptor (offset + 1)).andThen fun element behind =>
          some ((arrayed descriptor element).map fun type => (type, behind))
      else if byte = 'L'.toUInt8 then classNameAt context descriptor (offset + 1)
      else letterAt descriptor offset byte
  termination_by (Bytes.ofText descriptor).length - offset
  decreasing_by
    have inside := (List.getElem?_eq_some_iff.1 _seen).1
    omega

theorem le_of_classNameAt {context : Context} {descriptor : String} {offset behind : Nat}
    {type : JvmType} (read : classNameAt context descriptor offset = some (.ok (type, behind))) :
    offset ≤ behind := by
  unfold classNameAt at read
  rcases Option.bind_eq_some_iff.1 read with ⟨rest, -, read⟩
  split at read
  · cases read
  · next distance _ =>
      split at read
      · cases read
      · rcases Option.bind_eq_some_iff.1 read with ⟨name, -, read⟩
        rcases Outcome.map_eq_ok_iff.1 (Option.some.inj read) with ⟨type, -, same⟩
        cases same
        omega

/-- A type that is read takes up at least one byte. -/
theorem lt_of_typeAt {context : Context} {descriptor : String} {offset behind : Nat} {type : JvmType}
    (read : typeAt context descriptor offset = some (.ok (type, behind))) : offset < behind := by
  fun_induction typeAt context descriptor offset generalizing type behind with
  | case1 => cases read
  | case2 offset seen ih =>
      rcases sight : typeAt context descriptor (offset + 1) with _ | fault | ⟨element, after⟩
      · rw [sight] at read
        cases read
      · rw [sight] at read
        cases read
      · rw [sight] at read
        rcases Outcome.map_eq_ok_iff.1 (Option.some.inj read) with ⟨type, -, same⟩
        cases same
        exact Nat.lt_of_succ_lt (ih sight)
  | case3 offset seen notBracket => exact le_of_classNameAt read
  | case4 offset byte seen notBracket notClass =>
      unfold letterAt at read
      rcases Option.bind_eq_some_iff.1 read with ⟨rest, -, read⟩
      simp only at read
      split at read
      · cases read
      · cases read
        exact Nat.lt_succ_self offset

/-- Reads parameter types up to the closing parenthesis; `done` holds those read so far in reverse. -/
def paramsAt (context : Context) (descriptor : String) (done : List JvmType) (offset : Nat) :
    Sight (List JvmType) :=
  match _seen : byteAt? descriptor offset with
  | none => some (.error (.truncated descriptor))
  | some byte =>
      if byte = ')'.toUInt8 then some (.ok (done.reverse, offset + 1))
      else
        match _read : typeAt context descriptor offset with
        | none => none
        | some (.error fault) => some (.error fault)
        | some (.ok (param, behind)) =>
            if param = .void then some (.error (.misplacedVoid descriptor))
            else paramsAt context descriptor (param :: done) behind
  termination_by (Bytes.ofText descriptor).length - offset
  decreasing_by
    have inside := (List.getElem?_eq_some_iff.1 _seen).1
    have further := lt_of_typeAt _read
    omega

/-- Reads a descriptor by offsets, from the first to the last. -/
def signatureAt (context : Context) (descriptor : String) : Option (Except Fault Signature) :=
  match byteAt? descriptor 0 with
  | none => some (.error (.truncated descriptor))
  | some byte =>
      if byte = '('.toUInt8 then
        (paramsAt context descriptor [] 1).andThen fun params behind =>
          (typeAt context descriptor behind).andThen fun returns last =>
            if last = descriptor.utf8ByteSize then some (.ok ⟨returns, params⟩)
            else some (.error (.unexpected descriptor .endOfDescriptor last))
      else some (.error (.unexpected descriptor .openingParenthesis 0))

/-! ## What is seen is what is read -/

variable {context : Context} {descriptor : String} {offset : Nat}

/-- The context has a fault for a class name that stands in the descriptor. -/
def Context.Refuses (context : Context) (descriptor : String) (fault : Fault) : Prop :=
  ∃ front name back, descriptor.toList = front ++ 'L' :: name ++ ';' :: back ∧ ';' ∉ name ∧
    context (String.ofList (dotted name)) = .error fault

/-- A fault is that of the context for a class name, or it points into the descriptor. -/
def Explains (context : Context) (descriptor : String) (fault : Fault) : Prop :=
  context.Refuses descriptor fault ∨ fault.PointsInto descriptor

theorem unexpected_pointsInto {chars : List Char} (stands : StandsAt descriptor offset chars)
    (expected : Expectation) : (Fault.unexpected descriptor expected offset).PointsInto descriptor := by
  rcases stands.exists_splits with ⟨place, _, found, _⟩
  exact ⟨rfl, place, congrArg String.Pos.Raw.byteIdx found⟩

/-- Reading by offsets keeps up with reading: it comes to the same fault, or to the same value at the offset
of a character boundary. -/
inductive Follows {α : Type} (context : Context) (descriptor : String) :
    Except Fault (Progress α) → Sight α → Prop where
  | refused {fault : Fault} (explained : Explains context descriptor fault) :
      Follows context descriptor (.error fault) (some (.error fault))
  | read {progress : Progress α} (stands : StandsAt descriptor progress.offset progress.rest) :
      Follows context descriptor (.ok progress) (some (.ok (progress.value, progress.offset)))

theorem follows_pointing {α : Type} {fault : Fault} (points : fault.PointsInto descriptor) :
    @Follows α context descriptor (.error fault) (some (.error fault)) :=
  .refused (.inr points)

theorem Follows.andThen {α β : Type} {outcome : Except Fault (Progress α)} {sight : Sight α}
    {next : Progress α → Except Fault (Progress β)} {look : α → Nat → Sight β}
    (begun : Follows context descriptor outcome sight)
    (keeps : ∀ progress, outcome = .ok progress →
      StandsAt descriptor progress.offset progress.rest →
      Follows context descriptor (next progress) (look progress.value progress.offset)) :
    Follows context descriptor (outcome >>= next) (sight.andThen look) := by
  cases begun with
  | refused explained => exact .refused explained
  | read stands => exact keeps _ rfl stands

theorem follows_classNameAt {chars : List Char} (begins : StandsAt descriptor offset ('L' :: chars)) :
    Follows context descriptor (decodeClassName context descriptor (offset + 1) chars)
      (classNameAt context descriptor (offset + 1)) := by
  have stands : StandsAt descriptor (offset + 1) chars := begins.skip
  have closing : ';'.utf8Size = 1 := rfl
  simp only [classNameAt, stands.sliceFrom?_eq, Text.findLetter?_ofList closing, Option.bind_some]
  by_cases terminated : ';' ∈ chars
  · rcases List.eq_append_cons_of_mem terminated with ⟨name, rest, rfl, unterminated⟩
    rw [if_pos terminated, takeWhile_name unterminated]
    by_cases empty : name = []
    · subst empty
      exact follows_pointing (unexpected_pointsInto stands .className)
    · have distance : (String.ofList name).utf8ByteSize ≠ 0 := by
        simpa [String.utf8ByteSize_eq_zero_iff] using empty
      simp only [if_neg distance, String.ofList_append, Text.sliceTo?_append, Option.bind_some,
        String.toList_ofList, decodeClassName_append descriptor (offset + 1) rest empty unterminated,
        byteLength_eq_utf8ByteSize]
      cases resolved : context (String.ofList (dotted name)) with
      | error fault =>
          rcases begins with ⟨front, whole, _⟩
          refine .refused (.inl ⟨front.toList, name, rest, ?_, unterminated, resolved⟩)
          rw [whole, String.toList_append, String.toList_ofList, List.append_assoc, List.cons_append]
      | ok type => exact .read stands.drop.skip
  · rw [if_neg terminated, decodeClassName_unterminated descriptor (offset + 1) terminated]
    exact follows_pointing rfl

theorem typeAt_of_byteAt? {byte : UInt8} (seen : byteAt? descriptor offset = some byte) :
    typeAt context descriptor offset =
      if byte = '['.toUInt8 then
        (typeAt context descriptor (offset + 1)).andThen fun element behind =>
          some ((arrayed descriptor element).map fun type => (type, behind))
      else if byte = 'L'.toUInt8 then classNameAt context descriptor (offset + 1)
      else letterAt descriptor offset byte := by
  rw [typeAt]
  split
  · next unseen => cases seen.symm.trans unseen
  · next found again =>
      cases seen.symm.trans again
      rfl

theorem follows_typeAt {chars : List Char} (stands : StandsAt descriptor offset chars) :
    Follows context descriptor (decodeType context descriptor 0 offset chars)
      (typeAt context descriptor offset) := by
  induction chars generalizing offset with
  | nil =>
      rw [typeAt]
      split
      · exact follows_pointing rfl
      · next seen => cases stands.byteAt?_nil.symm.trans seen
  | cons first rest ih =>
      -- The byte is part of a character that may be longer, but a letter it is only as the whole of it.
      rcases stands.exists_byteAt? with ⟨byte, seen, isByteOf⟩
      rw [typeAt_of_byteAt? seen]
      simp only [isByteOf '[' rfl, isByteOf 'L' rfl]
      by_cases bracket : first = '['
      · subst bracket
        rw [decodeType_bracket, if_pos rfl]
        refine (ih stands.skip).andThen fun element _ behind => ?_
        simp only [Progress.arrayed, arrayed]
        split
        · exact follows_pointing rfl
        · exact .read behind
      by_cases className : first = 'L'
      · subst className
        rw [decodeType_className, if_neg bracket, if_pos rfl]
        exact follows_classNameAt stands
      · rw [decodeType_letter _ _ bracket className, if_neg bracket, if_neg className]
        simp only [letterAt, stands.sliceFrom?_eq, Option.bind_some, String.toList_ofList,
          List.headD_cons]
        cases known : Primitive.ofCode? first with
        | none =>
            have absent : first ∉ typeLetters := by
              intro member
              simp only [typeLetters, List.mem_cons, List.mem_map] at member
              rcases member with same | same | ⟨primitive, _, rfl⟩
              · exact bracket same
              · exact className same
              · cases (Primitive.ofCode?_code primitive).symm.trans known
            exact follows_pointing ⟨rfl, absent, stands.exists_get_eq⟩
        | some primitive =>
            -- The offset moves by one byte, which leads to a boundary because all codes are single bytes.
            have single : first.utf8Size = 1 := by
              rw [Primitive.ofCode?_eq_some_iff.1 known]
              cases primitive <;> rfl
            have behind := stands.skip
            rw [single] at behind
            exact .read behind

theorem paramsAt_of_byteAt? {byte : UInt8} (seen : byteAt? descriptor offset = some byte)
    (done : List JvmType) :
    paramsAt context descriptor done offset =
      if byte = ')'.toUInt8 then some (.ok (done.reverse, offset + 1))
      else
        (typeAt context descriptor offset).andThen fun param behind =>
          if param = .void then some (.error (.misplacedVoid descriptor))
          else paramsAt context descriptor (param :: done) behind := by
  rw [paramsAt]
  split
  · next unseen => cases seen.symm.trans unseen
  · next found again =>
      cases seen.symm.trans again
      split
      · rfl
      · split <;> rename_i read <;> rw [read] <;> rfl

theorem follows_paramsAt {offset : Nat} {chars : List Char} (done : List JvmType)
    (stands : StandsAt descriptor offset chars) :
    Follows context descriptor (decodeParams context descriptor done offset chars)
      (paramsAt context descriptor done offset) := by
  match chars with
  | [] =>
      rw [decodeParams, paramsAt]
      split
      · exact follows_pointing rfl
      · next seen => cases stands.byteAt?_nil.symm.trans seen
  | first :: rest =>
      rcases stands.exists_byteAt? with ⟨byte, seen, isByteOf⟩
      rw [paramsAt_of_byteAt? seen]
      simp only [isByteOf ')' rfl]
      by_cases closes : first = ')'
      · subst closes
        rw [decodeParams, if_pos rfl]
        exact .read stands.skip
      · rw [decodeParams_eq_bind closes, if_neg closes]
        refine (follows_typeAt stands).andThen fun param typed behind => ?_
        split
        · exact follows_pointing rfl
        · exact follows_paramsAt (param.value :: done) behind
  termination_by chars.length
  decreasing_by exact decodeType_shorter typed

/-- Reading by offsets is done and has come to what reading comes to. -/
structure Settles (context : Context) (descriptor : String) (outcome : Except Fault Signature)
    (sight : Option (Except Fault Signature)) : Prop where
  same : sight = some outcome
  explained : ∀ fault, outcome = .error fault → Explains context descriptor fault

theorem settles_pointing {fault : Fault} (points : fault.PointsInto descriptor) :
    Settles context descriptor (.error fault) (some (.error fault)) where
  same := rfl
  explained _ refused := by
    cases refused
    exact .inr points

theorem Follows.settles {α : Type} {outcome : Except Fault (Progress α)} {sight : Sight α}
    {next : Progress α → Except Fault Signature} {look : α → Nat → Option (Except Fault Signature)}
    (begun : Follows context descriptor outcome sight)
    (keeps : ∀ progress, StandsAt descriptor progress.offset progress.rest →
      Settles context descriptor (next progress) (look progress.value progress.offset)) :
    Settles context descriptor (outcome >>= next) (sight.andThen look) := by
  cases begun with
  | refused explained =>
      refine ⟨rfl, fun fault refused => ?_⟩
      cases refused
      exact explained
  | read stands => exact keeps _ stands

theorem settles_signatureAt (context : Context) (descriptor : String) :
    Settles context descriptor (decode context descriptor) (signatureAt context descriptor) := by
  have begins := Text.standsAt_zero descriptor
  unfold decode signatureAt
  cases shape : descriptor.toList with
  | nil =>
      rw [shape] at begins
      rw [begins.byteAt?_nil]
      exact settles_pointing rfl
  | cons first rest =>
      rw [shape] at begins
      rcases begins.exists_byteAt? with ⟨byte, seen, isByteOf⟩
      simp only [seen, isByteOf '(' rfl]
      by_cases opens : first = '('
      · subst opens
        rw [if_pos rfl]
        refine (follows_paramsAt [] begins.skip).settles fun params behindParams => ?_
        refine (follows_typeAt behindParams).settles fun returns behind => ?_
        simp only [behind.eq_utf8ByteSize_iff, List.isEmpty_iff]
        split
        · exact ⟨rfl, fun _ refused => nomatch refused⟩
        · exact settles_pointing (unexpected_pointsInto behind .endOfDescriptor)
      · rw [if_neg opens]
        split
        · next nothing => cases nothing
        · next again => exact absurd (List.cons.inj again).1 opens
        exact settles_pointing (unexpected_pointsInto begins .openingParenthesis)

/-- Reading by offsets never looks between the bytes of a character and comes to what reading comes to. A
fault is that of the context for a class name in the descriptor, or its offset is that of a character
boundary, where an unknown code stands itself. -/
theorem decode_boundaries (context : Context) (descriptor : String) :
    signatureAt context descriptor = some (decode context descriptor) ∧
      ∀ fault, decode context descriptor = .error fault →
        context.Refuses descriptor fault ∨ fault.PointsInto descriptor :=
  ⟨(settles_signatureAt context descriptor).same, (settles_signatureAt context descriptor).explained⟩

/-- An unknown code stands behind the name of a class, both of more bytes than characters. -/
example : decode openContext "(Lä;λ)V" = .error (.unknownCode "(Lä;λ)V" 'λ' 5) := by
  cbv

end ApiCoverage.Descriptor
