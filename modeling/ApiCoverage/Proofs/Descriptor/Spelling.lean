import ApiCoverage.Proofs.Descriptor.Slashes
import ApiCoverage.Proofs.Outcome
import Mathlib.Data.List.Forall2
import Mathlib.Data.List.TakeWhile

/-!
# What texts spell as descriptors

A text spells a type, and a type has as many spellings as its class names have: packages may be
separated by dots as well as by slashes. Reading a descriptor where every class name is known
succeeds on exactly the spelled texts and gives what they spell.

A type is read with a count of the brackets before it, so the statements about one type speak of the
spelling behind the brackets.
-/

namespace ApiCoverage.Descriptor

open JvmType (arrayOf)
open Outcome (bind_eq_ok_iff)

/-! ## Lengths in bytes -/

theorem foldl_utf8Size (chars : List Char) (start : Nat) :
    chars.foldl (fun length char => length + char.utf8Size) start = start + byteLength chars := by
  induction chars generalizing start with
  | nil => rfl
  | cons char rest ih =>
      change rest.foldl _ (start + char.utf8Size) = start + rest.foldl _ (0 + char.utf8Size)
      rw [ih, ih]
      omega

@[simp]
theorem byteLength_nil : byteLength [] = 0 :=
  rfl

@[simp]
theorem byteLength_cons (char : Char) (rest : List Char) :
    byteLength (char :: rest) = char.utf8Size + byteLength rest := by
  rw [byteLength, List.foldl_cons, foldl_utf8Size]
  omega

@[simp]
theorem byteLength_append (first second : List Char) :
    byteLength (first ++ second) = byteLength first + byteLength second := by
  rw [byteLength, List.foldl_append, foldl_utf8Size]
  rfl

theorem byteLength_eq_utf8ByteSize (chars : List Char) :
    byteLength chars = (String.ofList chars).utf8ByteSize := by
  induction chars with
  | nil => rfl
  | cons char rest ih =>
      rw [byteLength_cons, ih, String.ofList_cons, String.utf8ByteSize_append,
        String.utf8ByteSize_singleton]

theorem byteLength_toList (text : String) : byteLength text.toList = text.utf8ByteSize := by
  rw [byteLength_eq_utf8ByteSize, String.ofList_toList]

/-! ## Spellings -/

/-- A text spells a type. -/
inductive Spells : List Char → JvmType → Prop where
  | primitive (type : Primitive) : Spells [type.code] (.primitive type)
  | object {name : List Char} (present : name ≠ []) (unterminated : ';' ∉ name) :
      Spells ('L' :: name ++ [';']) (.object (String.ofList (dotted name)))
  | array {text : List Char} {element : JvmType} (spells : Spells text element)
      (present : element ≠ .void) : Spells ('[' :: text) (.array element)

/-- A text spells a parameter: `void` is none. -/
def SpellsParam (text : List Char) (param : JvmType) : Prop :=
  Spells text param ∧ param ≠ .void

/-- A text spells a signature: parameters between parentheses, then the return type. -/
inductive SpellsSignature : List Char → Signature → Prop where
  | mk {pieces : List (List Char)} {params : List JvmType} {text : List Char} {returns : JvmType}
      (spelledParams : List.Forall₂ SpellsParam pieces params)
      (spelledReturns : Spells text returns) :
      SpellsSignature ('(' :: pieces.flatten ++ ')' :: text) ⟨returns, params⟩

/-- Every spelling begins with a character that closes no parameter list. -/
theorem Spells.exists_eq_cons {text : List Char} {type : JvmType} (spells : Spells text type) :
    ∃ first others, text = first :: others ∧ first ≠ ')' := by
  cases spells with
  | primitive type => exact ⟨type.code, [], rfl, by cases type <;> decide⟩
  | object => exact ⟨'L', _, rfl, by decide⟩
  | array => exact ⟨'[', _, rfl, by decide⟩

/-! ## Reading what is spelled -/

/-- No character of a name without a semicolon ends the name. -/
theorem forall_passes {name : List Char} (unterminated : ';' ∉ name) :
    ∀ char ∈ name, (char != ';') = true := by
  intro char member
  rw [bne_iff_ne]
  rintro rfl
  exact unterminated member

theorem takeWhile_name {name : List Char} (unterminated : ';' ∉ name) (rest : List Char) :
    (name ++ ';' :: rest).takeWhile (· != ';') = name := by
  rw [List.takeWhile_append_of_pos (forall_passes unterminated)]
  simp

theorem dropWhile_name {name : List Char} (unterminated : ';' ∉ name) (rest : List Char) :
    (name ++ ';' :: rest).dropWhile (· != ';') = ';' :: rest := by
  rw [List.dropWhile_append_of_pos (forall_passes unterminated)]
  simp

/-- A name without a semicolon is read up to the semicolon after it, and the context is asked for it. -/
theorem decodeClassName_append {context : Context} (descriptor : String) (offset : Nat)
    {name : List Char} (rest : List Char) (present : name ≠ []) (unterminated : ';' ∉ name) :
    decodeClassName context descriptor offset (name ++ ';' :: rest) =
      (context (String.ofList (dotted name))).map fun type =>
        ⟨type, offset + byteLength name + 1, rest⟩ := by
  simp only [decodeClassName, takeWhile_name unterminated, dropWhile_name unterminated,
    List.isEmpty_iff, if_neg present]
  cases context (String.ofList (dotted name)) <;> rfl

/-- A class name that no semicolon ends is missing it. -/
theorem decodeClassName_unterminated {context : Context} (descriptor : String) (offset : Nat)
    {chars : List Char} (unterminated : ';' ∉ chars) :
    decodeClassName context descriptor offset chars = .error (.truncated descriptor) := by
  have nothing : chars.dropWhile (· != ';') = [] :=
    List.dropWhile_eq_nil_iff.2 (forall_passes unterminated)
  simp only [decodeClassName, nothing]

/-- Array layers go around every type but `void`. -/
theorem layered_eq_ok_iff {descriptor : String} {depth : Nat} {base type : JvmType} :
    layered descriptor depth base = .ok type ↔
      (depth > 0 → base ≠ .void) ∧ type = arrayOf depth base := by
  unfold layered
  split
  · next forbidden =>
      simp only [Bool.and_eq_true, JvmType.isVoid_iff, decide_eq_true_eq] at forbidden
      simp [forbidden]
  · next allowed =>
      simp only [Bool.and_eq_true, JvmType.isVoid_iff, decide_eq_true_eq, not_and] at allowed
      have holds : depth > 0 → base ≠ .void := fun deep same => allowed same deep
      rw [Except.ok.injEq, and_iff_right holds, eq_comm]

/-- A letter is read as the primitive type that it stands for. -/
theorem decodeType_code (context : Context) (descriptor : String) (depth offset : Nat)
    (type : Primitive) (rest : List Char) :
    decodeType context descriptor depth offset (type.code :: rest) =
      (layered descriptor depth (.primitive type)).map fun type => ⟨type, offset + 1, rest⟩ := by
  cases type <;> rfl

/-- A spelled type is read, together with the array brackets before it, whatever follows. -/
theorem Spells.decodeType_append {text : List Char} {type : JvmType} (spells : Spells text type)
    (descriptor : String) (depth offset : Nat) (holds : depth > 0 → type ≠ .void)
    (rest : List Char) :
    decodeType openContext descriptor depth offset (text ++ rest) =
      .ok ⟨arrayOf depth type, offset + byteLength text, rest⟩ := by
  -- The brackets that are read so far pass into `depth`, so it varies along the spelling.
  induction spells generalizing depth offset with
  | primitive type =>
      have narrow : type.code.utf8Size = 1 := by cases type <;> rfl
      rw [List.singleton_append, decodeType_code, layered_eq_ok_iff.2 ⟨holds, rfl⟩]
      simp [narrow, Except.map]
  | @object name present unterminated =>
      have letter : 'L'.utf8Size = 1 := rfl
      have closing : ';'.utf8Size = 1 := rfl
      rw [List.append_assoc, List.cons_append, decodeType, List.singleton_append,
        decodeClassName_append descriptor (offset + 1) rest present unterminated]
      simp only [openContext, Except.map, bind, Except.bind, layered_eq_ok_iff.2 ⟨holds, rfl⟩]
      simp [letter, closing, pure, Except.pure]
      omega
  | array _ present ih =>
      have opening : '['.utf8Size = 1 := rfl
      rw [List.cons_append, decodeType, ih _ _ fun _ => present, byteLength_cons, opening, arrayOf,
        Nat.add_assoc]

/-- In front of anything but a closing parenthesis a parameter is read, then the others. -/
theorem decodeParams_eq_bind {context : Context} {descriptor : String} {done : List JvmType}
    {offset : Nat} {first : Char} {others : List Char} (opens : first ≠ ')') :
    decodeParams context descriptor done offset (first :: others) =
      decodeType context descriptor 0 offset (first :: others) >>= fun param =>
        if param.value = .void then .error (.misplacedVoid descriptor)
        else decodeParams context descriptor (param.value :: done) param.offset param.rest := by
  rw [decodeParams]
  · split
    · next failed =>
        rw [failed]
        rfl
    · next found succeeded =>
        rw [succeeded]
        simp only [JvmType.isVoid_iff]
        rfl
  · exact opens

/-- A parameter that is read goes to the others. -/
theorem decodeParams_cons {context : Context} {descriptor : String} {done : List JvmType}
    {offset : Nat} {first : Char} {others : List Char} {param : Progress JvmType}
    (opens : first ≠ ')')
    (read : decodeType context descriptor 0 offset (first :: others) = .ok param)
    (present : param.value ≠ .void) :
    decodeParams context descriptor done offset (first :: others) =
      decodeParams context descriptor (param.value :: done) param.offset param.rest := by
  rw [decodeParams_eq_bind opens, read]
  exact if_neg present

/-- Spelled parameters are read in order, and reading goes on with what follows them. -/
theorem decodeParams_append (descriptor : String) {pieces : List (List Char)}
    {params : List JvmType} (spelled : List.Forall₂ SpellsParam pieces params)
    (done : List JvmType) (offset : Nat) (rest : List Char) :
    decodeParams openContext descriptor done offset (pieces.flatten ++ rest) =
      decodeParams openContext descriptor (params.reverse ++ done)
        (offset + byteLength pieces.flatten) rest := by
  induction spelled generalizing done offset with
  | nil => simp
  | @cons piece param pieces params head _ ih =>
      obtain ⟨spells, present⟩ := head
      obtain ⟨first, tail, shape, opens⟩ := spells.exists_eq_cons
      have read := spells.decodeType_append descriptor 0 offset (by omega)
        (pieces.flatten ++ rest)
      rw [shape, List.cons_append] at read
      rw [List.flatten_cons, List.append_assoc, shape, List.cons_append,
        decodeParams_cons opens read present, ih]
      simp [arrayOf, Nat.add_assoc]

/-- Spelled parameters are read up to the parenthesis after them. -/
theorem decodeParams_flatten (descriptor : String) {pieces : List (List Char)}
    {params : List JvmType} (spelled : List.Forall₂ SpellsParam pieces params)
    (done : List JvmType) (offset : Nat) (rest : List Char) :
    decodeParams openContext descriptor done offset (pieces.flatten ++ ')' :: rest) =
      .ok ⟨done.reverse ++ params, offset + byteLength pieces.flatten + 1, rest⟩ := by
  rw [decodeParams_append descriptor spelled, decodeParams]
  simp

/-- A spelled signature is read, and then the text has to end. -/
theorem SpellsSignature.decode_append {text more : List Char} {signature : Signature}
    (spelled : SpellsSignature text signature) {descriptor : String}
    (shape : descriptor.toList = text ++ more) :
    decode openContext descriptor =
      if more.isEmpty then .ok signature
      else .error (.unexpected descriptor .endOfDescriptor (byteLength text)) := by
  rcases spelled with @⟨pieces, params, text, returns, spelledParams, spells⟩
  have length : byteLength ('(' :: pieces.flatten ++ ')' :: text) =
      1 + byteLength pieces.flatten + 1 + byteLength text := by
    have opening : '('.utf8Size = 1 := rfl
    have closing : ')'.utf8Size = 1 := rfl
    simp [opening, closing, Nat.add_assoc]
  have paramsRead := decodeParams_flatten descriptor spelledParams [] 1 (text ++ more)
  have returnsRead := spells.decodeType_append descriptor 0 (1 + byteLength pieces.flatten + 1)
    (by omega) more
  rw [List.cons_append, List.cons_append, List.append_assoc, List.cons_append] at shape
  rw [decode, shape, length]
  simp only [paramsRead, bind, Except.bind, returnsRead]
  rfl

/-! ## What is read is spelled -/

/-- A class name that is read stands in front of a semicolon. -/
theorem exists_of_decodeClassName {descriptor : String} {offset : Nat} {chars : List Char}
    {result : Progress JvmType}
    (read : decodeClassName openContext descriptor offset chars = .ok result) :
    ∃ name, name ≠ [] ∧ ';' ∉ name ∧ chars = name ++ ';' :: result.rest ∧
      result.value = .object (String.ofList (dotted name)) := by
  have whole := List.takeWhile_append_dropWhile (p := fun char => char != ';') (l := chars)
  have unterminated : ';' ∉ chars.takeWhile (· != ';') := by
    intro member
    simpa using List.mem_takeWhile_imp member
  unfold decodeClassName at read
  simp only at read
  split at read
  · cases read
  · next closing rest found =>
      have closes : closing = ';' := by
        have stops := List.head?_dropWhile_not (fun char => char != ';') chars
        rw [found] at stops
        simpa using stops
      rw [found, closes] at whole
      split at read
      · cases read
      · next present =>
          cases read
          exact ⟨_, by simpa using present, unterminated, whole.symm, rfl⟩

/-- A type that is read is spelled behind the brackets before it. -/
theorem exists_spells_of_decodeType {descriptor : String} {depth offset : Nat} {chars : List Char}
    {result : Progress JvmType}
    (read : decodeType openContext descriptor depth offset chars = .ok result) :
    ∃ text base, chars = text ++ result.rest ∧ Spells text base ∧ (depth > 0 → base ≠ .void) ∧
      result.value = arrayOf depth base := by
  fun_induction decodeType openContext descriptor depth offset chars with
  | case1 => cases read
  | case2 depth offset rest ih =>
      rcases ih read with ⟨text, base, rfl, spells, holds, value⟩
      have present := holds (Nat.succ_pos depth)
      exact ⟨'[' :: text, .array base, rfl, .array spells present, by simp, value⟩
  | case3 depth offset rest =>
      rcases bind_eq_ok_iff.1 read with ⟨base, named, read⟩
      rcases bind_eq_ok_iff.1 read with ⟨type, wrapped, read⟩
      cases read
      rcases exists_of_decodeClassName named with ⟨name, present, unterminated, rfl, value⟩
      rcases layered_eq_ok_iff.1 wrapped with ⟨holds, rfl⟩
      rw [value] at holds ⊢
      exact ⟨_, _, by simp, .object present unterminated, holds, rfl⟩
  | case4 => cases read
  | case5 depth offset letter rest notArray notClass primitive known =>
      rcases bind_eq_ok_iff.1 read with ⟨type, wrapped, read⟩
      cases read
      rcases layered_eq_ok_iff.1 wrapped with ⟨holds, rfl⟩
      rw [Primitive.ofCode?_eq_some_iff] at known
      subst known
      exact ⟨_, _, rfl, .primitive primitive, holds, rfl⟩

/-- Parameters that are read are spelled up to the parenthesis after them. -/
theorem exists_spells_of_decodeParams {descriptor : String} {done : List JvmType} {offset : Nat}
    {chars : List Char} {result : Progress (List JvmType)}
    (read : decodeParams openContext descriptor done offset chars = .ok result) :
    ∃ pieces params, chars = pieces.flatten ++ ')' :: result.rest ∧
      List.Forall₂ SpellsParam pieces params ∧ result.value = done.reverse ++ params := by
  fun_induction decodeParams openContext descriptor done offset chars with
  | case1 => cases read
  | case2 done offset rest =>
      cases read
      exact ⟨[], [], rfl, .nil, by simp⟩
  | case3 => cases read
  | case4 => cases read
  | case5 done offset first others opens param typed nonvoid ih =>
      rcases exists_spells_of_decodeType typed with ⟨text, base, front, spells, _, value⟩
      rcases ih read with ⟨pieces, params, back, spelled, collected⟩
      have present : param.value ≠ .void := fun same => nonvoid ((JvmType.isVoid_iff _).2 same)
      change param.value = base at value
      rw [value] at present collected
      refine ⟨text :: pieces, base :: params, ?_, .cons ⟨spells, present⟩ spelled, ?_⟩
      · rw [front, back, List.flatten_cons, List.append_assoc]
      · simpa using collected

/-- Reading succeeds on exactly the spelled texts and gives what they spell. -/
theorem decode_openContext_eq_ok_iff {descriptor : String} {signature : Signature} :
    decode openContext descriptor = .ok signature ↔
      SpellsSignature descriptor.toList signature := by
  constructor
  · intro read
    unfold decode at read
    split at read
    · cases read
    · next rest shape =>
        rcases bind_eq_ok_iff.1 read with ⟨params, paramsRead, read⟩
        rcases bind_eq_ok_iff.1 read with ⟨returns, returnsRead, read⟩
        rcases exists_spells_of_decodeParams paramsRead with
          ⟨pieces, types, front, spelled, collected⟩
        rcases exists_spells_of_decodeType returnsRead with ⟨text, type, back, spells, _, value⟩
        split at read
        · next ended =>
            cases read
            rw [List.isEmpty_iff] at ended
            rw [shape, front, back, ended, List.append_nil, value, collected]
            exact .mk spelled spells
        · cases read
    · cases read
  · intro spelled
    exact spelled.decode_append (List.append_nil _).symm

end ApiCoverage.Descriptor
