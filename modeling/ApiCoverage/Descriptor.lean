import ApiCoverage.Descriptor.Fault
import ApiCoverage.JvmType

/-!
# Method descriptors

The compact form of a method signature in class files: the parameter types between parentheses,
then the return type, as in `(ILjava/lang/String;[[J)V`. Class names use `/` where display names
use `.`. Writing is total; reading names the first thing that is wrong and where it stands.

A descriptor is the identity of a method among its overloads; the display forms are for readers
and are never compared.
-/

namespace ApiCoverage

/-- A return type and parameter types. -/
structure Signature where
  returns : JvmType
  params : List JvmType
  deriving DecidableEq, Repr

namespace Descriptor

/-- Dots become slashes. -/
def slashed (chars : List Char) : List Char :=
  chars.map fun char => if char = '.' then '/' else char

/-- Slashes become dots. -/
def dotted (chars : List Char) : List Char :=
  chars.map fun char => if char = '/' then '.' else char

/-- The descriptor of one type. -/
def encodeType : JvmType → List Char
  | .primitive type => [type.code]
  | .object name => 'L' :: slashed name.toList ++ [';']
  | .array element => '[' :: encodeType element

/-- The descriptor of a signature, as characters. -/
def encodeChars (signature : Signature) : List Char :=
  '(' :: signature.params.flatMap encodeType ++ ')' :: encodeType signature.returns

/-- The descriptor of a signature. -/
def encode (signature : Signature) : String :=
  String.ofList (encodeChars signature)

/-- What a class name in a descriptor stands for. -/
abbrev Context := String → Except Fault JvmType

/-- The context in which every class name stands for the class of that name. -/
def openContext : Context :=
  fun name => .ok (.object name)

/-- The number of bytes of a character sequence in UTF-8. -/
def byteLength (chars : List Char) : Nat :=
  chars.foldl (fun length char => length + char.utf8Size) 0

/-- A value read from a descriptor, with the byte offset and the characters after it. -/
structure Progress (α : Type) where
  value : α
  offset : Nat
  rest : List Char

/-- Wraps a base type into `depth` array layers; `void` has no arrays. -/
def layered (descriptor : String) (depth : Nat) (base : JvmType) : Except Fault JvmType :=
  if base.isVoid && depth > 0 then .error (.misplacedVoid descriptor)
  else .ok (JvmType.arrayOf depth base)

/-- Reads a class name up to its semicolon and asks the context for it. -/
def decodeClassName (context : Context) (descriptor : String) (offset : Nat) (chars : List Char) :
    Except Fault (Progress JvmType) :=
  let name := chars.takeWhile (· != ';')
  match chars.dropWhile (· != ';') with
  | [] => .error (.truncated descriptor)
  | _ :: rest =>
      if name.isEmpty then .error (.unexpected descriptor .className offset)
      else do
        let type ← context (String.ofList (dotted name))
        return ⟨type, offset + byteLength name + 1, rest⟩

/-- Reads one type; `depth` counts the array brackets before it. -/
def decodeType (context : Context) (descriptor : String) (depth offset : Nat) :
    List Char → Except Fault (Progress JvmType)
  | [] => .error (.truncated descriptor)
  | '[' :: rest => decodeType context descriptor (depth + 1) (offset + 1) rest
  | 'L' :: rest => do
      let base ← decodeClassName context descriptor (offset + 1) rest
      let type ← layered descriptor depth base.value
      return ⟨type, base.offset, base.rest⟩
  | letter :: rest =>
      match Primitive.ofCode? letter with
      | none => .error (.unknownCode descriptor letter offset)
      | some primitive => do
          let type ← layered descriptor depth (.primitive primitive)
          return ⟨type, offset + 1, rest⟩

theorem decodeClassName_shorter {context : Context} {descriptor : String} {offset : Nat}
    {chars : List Char} {result : Progress JvmType}
    (read : decodeClassName context descriptor offset chars = .ok result) :
    result.rest.length < chars.length := by
  have suffix := (List.dropWhile_suffix (fun char => char != ';') (l := chars)).length_le
  unfold decodeClassName at read
  simp only at read
  split at read
  · simp at read
  · next rest found =>
      rw [found] at suffix
      split at read
      · simp at read
      · cases resolved : context (String.ofList (dotted (chars.takeWhile (· != ';')))) with
        | error fault => simp [resolved, bind, Except.bind] at read
        | ok type =>
            simp only [resolved, bind, Except.bind, pure, Except.pure, Except.ok.injEq] at read
            subst read
            simp only [List.length_cons] at suffix
            exact suffix

/-- A type that is read takes up at least one character. -/
theorem decodeType_shorter {context : Context} {descriptor : String} {depth offset : Nat}
    {chars : List Char} {result : Progress JvmType}
    (read : decodeType context descriptor depth offset chars = .ok result) :
    result.rest.length < chars.length := by
  fun_induction decodeType context descriptor depth offset chars with
  | case1 => simp at read
  | case2 depth offset rest ih => exact Nat.lt_succ_of_lt (ih read)
  | case3 depth offset rest =>
      cases base : decodeClassName context descriptor (offset + 1) rest with
      | error fault => simp [base, bind, Except.bind] at read
      | ok progress =>
          have shorter := decodeClassName_shorter base
          cases wrapped : layered descriptor depth progress.value with
          | error fault => simp [base, wrapped, bind, Except.bind] at read
          | ok type =>
              simp only [base, wrapped, bind, Except.bind, pure, Except.pure,
                Except.ok.injEq] at read
              subst read
              exact Nat.lt_succ_of_lt shorter
  | case4 => simp at read
  | case5 depth offset letter rest notArray notClass primitive known =>
      cases wrapped : layered descriptor depth (.primitive primitive) with
      | error fault => simp [wrapped, bind, Except.bind] at read
      | ok type =>
          simp only [wrapped, bind, Except.bind, pure, Except.pure, Except.ok.injEq] at read
          subst read
          simp

/-- Reads parameter types up to the closing parenthesis; `done` holds those read so far in
reverse. -/
def decodeParams (context : Context) (descriptor : String) (done : List JvmType) (offset : Nat) :
    List Char → Except Fault (Progress (List JvmType))
  | [] => .error (.truncated descriptor)
  | ')' :: rest => .ok ⟨done.reverse, offset + 1, rest⟩
  | first :: others =>
      match _read : decodeType context descriptor 0 offset (first :: others) with
      | .error fault => .error fault
      | .ok param =>
          if param.value.isVoid then .error (.misplacedVoid descriptor)
          else decodeParams context descriptor (param.value :: done) param.offset param.rest
  termination_by chars => chars.length
  decreasing_by exact decodeType_shorter _read

/-- Reads a descriptor in a context. -/
def decode (context : Context) (descriptor : String) : Except Fault Signature :=
  match descriptor.toList with
  | [] => .error (.truncated descriptor)
  | '(' :: rest => do
      let params ← decodeParams context descriptor [] 1 rest
      let returns ← decodeType context descriptor 0 params.offset params.rest
      if returns.rest.isEmpty then
        return ⟨returns.value, params.value⟩
      else
        .error (.unexpected descriptor .endOfDescriptor returns.offset)
  | _ :: _ => .error (.unexpected descriptor .openingParenthesis 0)

/-- Reads a descriptor and takes every class name as it stands. -/
def decodeOpen (descriptor : String) : Except Fault Signature :=
  decode openContext descriptor

/-- The display forms of parameter types, with commas between them. -/
def displayParams (params : List JvmType) : String :=
  ", ".intercalate (params.map JvmType.display)

/-- The display form `name(type, type)` of a method. -/
def display (name descriptor : String) : Except Fault String := do
  let signature ← decodeOpen descriptor
  return s!"{name}({displayParams signature.params})"

/-- The display form `Return name(type, type)` of a method, where the return type loses its
package. -/
def displayFull (name descriptor : String) : Except Fault String := do
  let signature ← decodeOpen descriptor
  return s!"{signature.returns.simpleDisplay} {name}({displayParams signature.params})"

end Descriptor

end ApiCoverage
