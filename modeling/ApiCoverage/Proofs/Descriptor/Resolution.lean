import ApiCoverage.Proofs.Descriptor.Element
import ApiCoverage.Proofs.Descriptor.Mentions

/-!
# What a context does to a descriptor

A context says what the class names of a descriptor stand for. It has no part in how the text is taken
apart: reading in a context is reading with the class names as they stand and then looking them up from
left to right. A name is refused if the context does not know it, or if it stands for `void` and is not
the return type itself. The first name that is refused decides; without one, every class name of the
signature is replaced by what it stands for.
-/

namespace ApiCoverage

/-- Replaces the class name in a type by a type. -/
def JvmType.substitute (image : String → JvmType) : JvmType → JvmType
  | .primitive type => .primitive type
  | .object name => image name
  | .array element => .array (element.substitute image)

/-- Replaces the class names in a signature by types. -/
def Signature.substitute (image : String → JvmType) (signature : Signature) : Signature :=
  ⟨signature.returns.substitute image, signature.params.map (JvmType.substitute image)⟩

namespace ClassMention

open Descriptor (Context Fault)

/-- The context knows the class name, and gives it a type that can stand in its place. -/
def Fits (context : Context) (mention : ClassMention) : Prop :=
  ∃ type, context mention.name = .ok type ∧ (type = .void → mention.returned = true)

/-- The class name is refused with a fault: the one that the context has for it, or `void` in a place
where it cannot stand. -/
def RefusedWith (context : Context) (descriptor : String) (mention : ClassMention) (fault : Fault) :
    Prop :=
  context mention.name = .error fault ∨
    context mention.name = .ok .void ∧ mention.returned = false ∧ fault = .misplacedVoid descriptor

/-- The fault with which the class name is refused, if it is. -/
def refusal? (context : Context) (descriptor : String) (mention : ClassMention) : Option Fault :=
  match context mention.name with
  | .error fault => some fault
  | .ok type =>
      if type = .void ∧ mention.returned = false then some (.misplacedVoid descriptor) else none

variable {context : Context} {descriptor : String} {mention : ClassMention}

theorem refusal?_eq_none_iff : mention.refusal? context descriptor = none ↔ mention.Fits context := by
  unfold refusal? Fits
  cases context mention.name with
  | error fault => simp
  | ok type => simp

theorem refusal?_eq_some_iff {fault : Fault} :
    mention.refusal? context descriptor = some fault ↔ mention.RefusedWith context descriptor fault := by
  unfold refusal? RefusedWith
  cases context mention.name with
  | error other => simp
  | ok type =>
      by_cases misplaced : type = .void ∧ mention.returned = false
      · simp [misplaced, eq_comm]
      · simp only [if_neg misplaced, reduceCtorEq, false_or, Except.ok.injEq, false_iff]
        rintro ⟨void, behind, _⟩
        exact misplaced ⟨void, behind⟩

end ClassMention

namespace Descriptor

open Outcome (bind_eq_ok_iff)

/-- What a class name stands for. One that the context does not know stands for itself. -/
def Context.typeOf (context : Context) (name : String) : JvmType :=
  match context name with
  | .ok type => type
  | .error _ => .object name

variable {context : Context} {descriptor : String}

/-! ## Looking up the names of a type -/

/-- Looks up the class name in a type; `returned` says whether the type is the return type. -/
def resolve (context : Context) (descriptor : String) (returned : Bool) :
    JvmType → Except Fault JvmType
  | .primitive type => .ok (.primitive type)
  | .object name => do
      let type ← context name
      if type = .void ∧ returned = false then .error (.misplacedVoid descriptor) else return type
  | .array element => (resolve context descriptor false element).map .array

/-- A value, unless there is a refusal. -/
def unlessRefused {α : Type} (value : α) : Option Fault → Except Fault α
  | some fault => .error fault
  | none => .ok value

section UnlessRefused

variable {α : Type} {value : α} {refusal : Option Fault}

theorem unlessRefused_eq_ok_iff {result : α} :
    unlessRefused value refusal = .ok result ↔ refusal = none ∧ result = value := by
  cases refusal <;> simp [unlessRefused, eq_comm]

theorem unlessRefused_eq_error_iff {fault : Fault} :
    unlessRefused value refusal = .error fault ↔ refusal = some fault := by
  cases refusal <;> simp [unlessRefused]

end UnlessRefused

theorem resolve_eq (returned : Bool) (type : JvmType) :
    resolve context descriptor returned type =
      unlessRefused (type.substitute context.typeOf)
        ((type.mentions returned).findSome? (ClassMention.refusal? context descriptor)) := by
  induction type generalizing returned with
  | primitive type => rfl
  | object name =>
      rw [resolve, JvmType.mentions, List.findSome?_cons, List.findSome?_nil, JvmType.substitute,
        Context.typeOf, ClassMention.refusal?]
      cases context name with
      | error fault => rfl
      | ok type =>
          by_cases misplaced : type = .void ∧ returned = false
          · simp [misplaced, unlessRefused, bind, Except.bind]
          · simp [misplaced, unlessRefused, bind, Except.bind, pure, Except.pure]
  | array element ih =>
      rw [resolve, ih, JvmType.mentions, JvmType.substitute]
      cases (element.mentions false).findSome? (ClassMention.refusal? context descriptor) <;> rfl

/-- Looks up the class names of a signature, those of the return type last. -/
def resolveSignature (context : Context) (descriptor : String) (signature : Signature) :
    Except Fault Signature := do
  let params ← signature.params.mapM (resolve context descriptor false)
  let returns ← resolve context descriptor true signature.returns
  return ⟨returns, params⟩

theorem mapM_resolve_eq (params : List JvmType) :
    params.mapM (resolve context descriptor false) =
      unlessRefused (params.map (JvmType.substitute context.typeOf))
        ((params.flatMap (JvmType.mentions false)).findSome?
          (ClassMention.refusal? context descriptor)) := by
  induction params with
  | nil => rfl
  | cons param rest ih =>
      rw [List.mapM_cons, ih, resolve_eq, List.flatMap_cons, List.findSome?_append]
      cases (param.mentions false).findSome? (ClassMention.refusal? context descriptor) with
      | some fault => rfl
      | none =>
          cases (rest.flatMap (JvmType.mentions false)).findSome?
            (ClassMention.refusal? context descriptor) <;> rfl

theorem resolveSignature_eq (signature : Signature) :
    resolveSignature context descriptor signature =
      unlessRefused (signature.substitute context.typeOf)
        (signature.mentions.findSome? (ClassMention.refusal? context descriptor)) := by
  rw [resolveSignature, mapM_resolve_eq, resolve_eq, Signature.mentions, List.findSome?_append]
  cases (signature.params.flatMap (JvmType.mentions false)).findSome?
      (ClassMention.refusal? context descriptor) with
  | some fault => rfl
  | none =>
      cases (signature.returns.mentions true).findSome?
        (ClassMention.refusal? context descriptor) <;> rfl

/-! ## Reading in a context -/

/-- A type that is not `void` cannot become `void` where `void` cannot stand. -/
theorem resolve_false {plain : JvmType} (present : plain ≠ .void) :
    resolve context descriptor false plain =
      resolve context descriptor true plain >>= fun type =>
        if type = .void then .error (.misplacedVoid descriptor) else .ok type := by
  cases plain with
  | primitive type => simp [resolve, bind, Except.bind, present]
  | object name =>
      simp only [resolve]
      cases context name <;> simp [bind, Except.bind, pure, Except.pure]
  | array element =>
      simp only [resolve]
      cases resolve context descriptor false element <;> simp [Except.map, bind, Except.bind]

/-- Looks up the class name in a type that was read. -/
def Progress.resolve (context : Context) (descriptor : String) (plain : Progress JvmType) :
    Except Fault (Progress JvmType) :=
  (Descriptor.resolve context descriptor true plain.value).map fun type =>
    { plain with value := type }

/-- Putting a layer around an element type and looking its name up come to the same in either order. -/
theorem Progress.resolve_bind_arrayed (plain : Progress JvmType) :
    (plain.resolve context descriptor >>= Progress.arrayed descriptor) =
      (plain.arrayed descriptor >>= Progress.resolve context descriptor) := by
  by_cases void : plain.value = .void
  · simp [Progress.resolve, Progress.arrayed, void, Descriptor.resolve, Descriptor.arrayed,
      Except.map, bind, Except.bind]
  · simp only [Progress.resolve, Progress.arrayed, Descriptor.arrayed, if_neg void, Except.map, bind,
      Except.bind, Descriptor.resolve, resolve_false void]
    cases Descriptor.resolve context descriptor true plain.value with
    | error fault => rfl
    | ok type => by_cases same : type = .void <;> simp [same]

theorem decodeClassName_eq_bind (offset : Nat) (chars : List Char) :
    decodeClassName context descriptor offset chars =
      decodeClassName openContext descriptor offset chars >>= Progress.resolve context descriptor := by
  simp only [decodeClassName]
  split
  · rfl
  · split
    · rfl
    · simp only [openContext, Progress.resolve, Descriptor.resolve, bind, Except.bind, pure, Except.pure]
      cases context (String.ofList (dotted (chars.takeWhile (· != ';')))) <;> simp [Except.map]

/-- A type is read in a context by reading it as it stands and looking its class name up. -/
theorem decodeType_eq_bind (context : Context) (descriptor : String) (offset : Nat)
    (chars : List Char) :
    decodeType context descriptor 0 offset chars =
      decodeType openContext descriptor 0 offset chars >>= Progress.resolve context descriptor := by
  induction chars generalizing offset with
  | nil => rfl
  | cons first rest ih =>
      by_cases bracket : first = '['
      · subst bracket
        rw [decodeType_bracket, decodeType_bracket, ih]
        cases decodeType openContext descriptor 0 (offset + 1) rest with
        | error fault => rfl
        | ok plain => exact plain.resolve_bind_arrayed
      by_cases className : first = 'L'
      · subst className
        rw [decodeType_className, decodeType_className, decodeClassName_eq_bind]
      · rw [decodeType_letter _ _ bracket className, decodeType_letter _ _ bracket className]
        cases Primitive.ofCode? first <;> rfl

/-- Parameters that can be read as they stand are read in a context by looking their names up. -/
theorem decodeParams_of_open (context : Context) {done : List JvmType} {offset : Nat}
    {chars : List Char} {plain : Progress (List JvmType)}
    (read : decodeParams openContext descriptor done offset chars = .ok plain) :
    ∃ params, plain.value = done.reverse ++ params ∧
      ∀ before, decodeParams context descriptor before offset chars =
        (params.mapM (resolve context descriptor false)).map fun types =>
          ⟨before.reverse ++ types, plain.offset, plain.rest⟩ := by
  fun_induction decodeParams openContext descriptor done offset chars with
  | case1 => cases read
  | case2 done offset rest =>
      cases read
      refine ⟨[], by simp, fun before => ?_⟩
      simp [decodeParams, Except.map, pure, Except.pure]
  | case3 => cases read
  | case4 => cases read
  | case5 done offset first others opens param typed nonvoid ih =>
      rcases ih read with ⟨params, collected, resolved⟩
      refine ⟨param.value :: params, by simpa using collected, fun before => ?_⟩
      have present : param.value ≠ .void := fun same => nonvoid ((JvmType.isVoid_iff _).2 same)
      rw [decodeParams_eq_bind opens, decodeType_eq_bind, typed, List.mapM_cons, resolve_false present]
      simp only [Progress.resolve, bind, Except.bind]
      cases Descriptor.resolve context descriptor true param.value with
      | error fault => rfl
      | ok type =>
          by_cases void : type = .void
          · simp [void, Except.map]
          · simp only [Except.map, if_neg void, resolved]
            cases params.mapM (resolve context descriptor false) <;> simp [pure, Except.pure]

/-- Parameters that are read in a context can be read as they stand. -/
theorem exists_open_of_decodeParams {done : List JvmType} {offset : Nat} {chars : List Char}
    {result : Progress (List JvmType)}
    (read : decodeParams context descriptor done offset chars = .ok result) (before : List JvmType) :
    ∃ plain, decodeParams openContext descriptor before offset chars = .ok plain ∧
      plain.offset = result.offset ∧ plain.rest = result.rest := by
  fun_induction decodeParams context descriptor done offset chars generalizing before with
  | case1 => cases read
  | case2 done offset rest =>
      cases read
      exact ⟨⟨before.reverse, offset + 1, rest⟩, by rw [decodeParams], rfl, rfl⟩
  | case3 => cases read
  | case4 => cases read
  | case5 done offset first others opens param typed nonvoid ih =>
      rw [decodeType_eq_bind] at typed
      rcases bind_eq_ok_iff.1 typed with ⟨plain, typedOpen, resolved⟩
      rcases Outcome.map_eq_ok_iff.1 resolved with ⟨type, resolves, rfl⟩
      have present : plain.value ≠ .void := by
        intro void
        rw [void] at resolves
        cases resolves
        exact nonvoid rfl
      rw [decodeParams_cons opens typedOpen present]
      exact ih read _

/-- A descriptor that can be read as it stands is read in a context by looking its names up. -/
theorem decode_of_decodeOpen {signature : Signature} (read : decodeOpen descriptor = .ok signature) :
    decode context descriptor = resolveSignature context descriptor signature := by
  unfold decodeOpen decode at read
  unfold decode
  split at read
  · cases read
  · next rest shape =>
      rcases bind_eq_ok_iff.1 read with ⟨params, paramsRead, read⟩
      rcases bind_eq_ok_iff.1 read with ⟨returns, returnsRead, read⟩
      split at read
      · next ended =>
          cases read
          rcases decodeParams_of_open context paramsRead with ⟨types, collected, resolved⟩
          rw [List.reverse_nil, List.nil_append] at collected
          rw [resolved, resolveSignature, collected]
          cases types.mapM (resolve context descriptor false) with
          | error fault => rfl
          | ok types =>
              simp only [Except.map, bind, Except.bind, decodeType_eq_bind, returnsRead,
                Progress.resolve]
              cases Descriptor.resolve context descriptor true returns.value with
              | error fault => rfl
              | ok type => simp [ended, pure, Except.pure]
      · cases read
  · cases read

/-- A descriptor that is read in some context can be read as it stands. -/
theorem exists_decodeOpen_of_decode {signature : Signature}
    (read : decode context descriptor = .ok signature) :
    ∃ plain, decodeOpen descriptor = .ok plain := by
  unfold decode at read
  unfold decodeOpen decode
  split at read
  · cases read
  · next rest shape =>
      rcases bind_eq_ok_iff.1 read with ⟨params, paramsRead, read⟩
      rcases bind_eq_ok_iff.1 read with ⟨returns, returnsRead, read⟩
      rcases exists_open_of_decodeParams paramsRead [] with ⟨plainParams, plainRead, place, left⟩
      rw [decodeType_eq_bind] at returnsRead
      rcases bind_eq_ok_iff.1 returnsRead with ⟨plainReturns, returnsOpen, resolved⟩
      rcases Outcome.map_eq_ok_iff.1 resolved with ⟨type, _, rfl⟩
      split at read
      · next ended =>
          refine ⟨⟨plainReturns.value, plainParams.value⟩, ?_⟩
          simp only [plainRead, place, left, returnsOpen, bind, Except.bind]
          exact if_pos ended
      · cases read
  · cases read

/-- The leftmost class name that is refused decides what comes of a descriptor that can be read as it
stands. -/
theorem decode_eq_unlessRefused {signature : Signature}
    (read : decodeOpen descriptor = .ok signature) :
    decode context descriptor =
      unlessRefused (signature.substitute context.typeOf)
        ((mentions descriptor).findSome? (ClassMention.refusal? context descriptor)) := by
  have spelled := decode_openContext_eq_ok_iff.1 read
  rw [decode_of_decodeOpen read, resolveSignature_eq, mentions, spelled.mentionsFrom_eq]

/-- Reading in a context succeeds exactly if the descriptor can be read as it stands and every class name
in it fits; then the class names are replaced by what they stand for. If it can be read as it stands, a
failure is that of the leftmost class name that does not fit. -/
theorem decode_substitutes (context : Context) (descriptor : String) :
    (∀ result, decode context descriptor = .ok result ↔
      ∃ signature, decodeOpen descriptor = .ok signature ∧
        (∀ mention ∈ mentions descriptor, mention.Fits context) ∧
        result = signature.substitute context.typeOf) ∧
    ∀ signature, decodeOpen descriptor = .ok signature →
      ∀ fault, decode context descriptor = .error fault ↔
        ∃ before mention after, mentions descriptor = before ++ mention :: after ∧
          (∀ earlier ∈ before, earlier.Fits context) ∧
          mention.RefusedWith context descriptor fault := by
  constructor
  · intro result
    constructor
    · intro read
      rcases exists_decodeOpen_of_decode read with ⟨signature, readOpen⟩
      rw [decode_eq_unlessRefused readOpen, unlessRefused_eq_ok_iff, List.findSome?_eq_none_iff] at read
      rcases read with ⟨unrefused, rfl⟩
      exact ⟨signature, readOpen, fun mention member =>
        ClassMention.refusal?_eq_none_iff.1 (unrefused mention member), rfl⟩
    · rintro ⟨signature, readOpen, fits, rfl⟩
      rw [decode_eq_unlessRefused readOpen, unlessRefused_eq_ok_iff, List.findSome?_eq_none_iff]
      exact ⟨fun mention member => ClassMention.refusal?_eq_none_iff.2 (fits mention member), rfl⟩
  · intro signature readOpen fault
    rw [decode_eq_unlessRefused readOpen, unlessRefused_eq_error_iff, List.findSome?_eq_some_iff]
    simp only [ClassMention.refusal?_eq_none_iff, ClassMention.refusal?_eq_some_iff]
    constructor
    · rintro ⟨before, mention, after, split, refused, fits⟩
      exact ⟨before, mention, after, split, fits, refused⟩
    · rintro ⟨before, mention, after, split, fits, refused⟩
      exact ⟨before, mention, after, split, refused, fits⟩

/-- The context knows the parameter, which is an array of nothing, and does not know the return type. -/
example : decode (fun name => if name = "a.None" then .ok .void else .error (.unresolved name))
      "([La/None;)Lb/Gone;" =
    .error (.misplacedVoid "([La/None;)Lb/Gone;") := by
  cbv

end Descriptor

end ApiCoverage
