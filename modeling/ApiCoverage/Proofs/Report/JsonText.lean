import ApiCoverage.Proofs.Report.Outline

/-!
# Reading JSON documents

A reader of JSON texts goes through a text once. Blanks between the parts of a value mean nothing, and
numbers are kept as they are written. The main statement says that the reader takes a written document
back apart into what the value says, whatever characters its strings hold.
-/

namespace ApiCoverage

/-- What a JSON text says. Numbers are kept as they are written. -/
inductive JsonTree where
  | null
  | boolean (value : Bool)
  | number (digits : String)
  | string (text : String)
  | array (items : List JsonTree)
  | object (fields : List (String × JsonTree))

namespace JsonTree

/-! ## The reader -/

/-- A reader takes a value from the front of a text and leaves the rest. -/
abbrev TextReader (α : Type) := List Char → Option (α × List Char)

/-- Whether a character means nothing between the parts of a value. -/
def isBlank (char : Char) : Bool :=
  char == ' ' || char == '\n' || char == '\r' || char == '\t'

/-- The text without the blanks in front. -/
def skipBlanks (text : List Char) : List Char :=
  text.dropWhile isBlank

/-- Whether a character can stand in a number. -/
def isNumberChar (char : Char) : Bool :=
  char.isDigit || char == '.' || char == '-' || char == '+' || char == 'e' || char == 'E'

/-- Whether a character can stand in a number or in a name of a value. -/
def isWordChar (char : Char) : Bool :=
  char.isAlpha || isNumberChar char

/-- The value that a number or a name stands for. -/
def ofWord? (word : List Char) : Option JsonTree :=
  if !word.isEmpty && word.all isNumberChar then some (.number (String.ofList word))
  else if word = ['n', 'u', 'l', 'l'] then some .null
  else if word = ['t', 'r', 'u', 'e'] then some (.boolean true)
  else if word = ['f', 'a', 'l', 's', 'e'] then some (.boolean false)
  else none

/-- Reads a number or a name. -/
def readWord : TextReader JsonTree := fun text =>
  (ofWord? (text.takeWhile isWordChar)).map fun tree => (tree, text.dropWhile isWordChar)

/-- The number of a hexadecimal digit. -/
def hexDigit? (char : Char) : Option Nat :=
  if char.isDigit then some (char.toNat - 48)
  else if 'a' ≤ char ∧ char ≤ 'f' then some (char.toNat - 87)
  else if 'A' ≤ char ∧ char ≤ 'F' then some (char.toNat - 55)
  else none

/-- The number of hexadecimal digits, the first of them the highest. -/
def hexValue? (digits : List Char) : Option Nat :=
  digits.foldlM (fun value digit => (hexDigit? digit).map fun low => value * 16 + low) 0

/-- The character that a character behind a backslash stands for. -/
def unescape? : Char → Option Char
  | '"' => some '"'
  | '\\' => some '\\'
  | '/' => some '/'
  | 'b' => some '\x08'
  | 't' => some '\t'
  | 'n' => some '\n'
  | 'f' => some '\x0c'
  | 'r' => some '\r'
  | _ => none

/-- Puts a character in front of what was read. -/
def withChar (char : Char) : Option (List Char × List Char) → Option (List Char × List Char) :=
  Option.map fun (text, rest) => (char :: text, rest)

/-- Reads a string behind its opening quote. -/
def readString : TextReader (List Char)
  | [] => none
  | '"' :: rest => some ([], rest)
  | '\\' :: 'u' :: first :: second :: third :: fourth :: rest => do
      let code ← hexValue? [first, second, third, fourth]
      withChar (Char.ofNat code) (readString rest)
  | '\\' :: escaped :: rest => do
      let char ← unescape? escaped
      withChar char (readString rest)
  | char :: rest => withChar char (readString rest)

variable {α : Type}

/-- Reads members with commas between them up to a closing character. -/
def readMembers (read : TextReader α) (closing : Char) : Nat → TextReader (List α)
  | 0, _ => none
  | fuel + 1, text => do
      let (member, rest) ← read text
      match skipBlanks rest with
      | [] => none
      | char :: rest =>
          if char = closing then some ([member], rest)
          else if char = ',' then do
            let (members, rest) ← readMembers read closing fuel rest
            return (member :: members, rest)
          else none

/-- Reads any number of members behind an opening character. Every member takes a character. -/
def readList (read : TextReader α) (closing : Char) : TextReader (List α) := fun text =>
  if (skipBlanks text).head? = some closing then some ([], (skipBlanks text).tail)
  else readMembers read closing text.length text

/-- Reads a name and the value behind it. -/
def readField (read : TextReader α) : TextReader (String × α) := fun text =>
  match skipBlanks text with
  | '"' :: rest => do
      let (name, rest) ← readString rest
      match skipBlanks rest with
      | ':' :: rest => do
          let (value, rest) ← read rest
          return ((String.ofList name, value), rest)
      | _ => none
  | _ => none

/-- Reads a value in which values stand at most `levels` deep. -/
def readValue : Nat → TextReader JsonTree
  | 0, _ => none
  | levels + 1, text =>
      match skipBlanks text with
      | '"' :: rest =>
          (readString rest).map fun (chars, rest) => (.string (String.ofList chars), rest)
      | '[' :: rest =>
          (readList (readValue levels) ']' rest).map fun (items, rest) => (.array items, rest)
      | '\x7b' :: rest =>
          (readList (readField (readValue levels)) '\x7d' rest).map fun (fields, rest) =>
            (.object fields, rest)
      | rest => readWord rest

/-- How deep values may stand in one another. -/
def maxDepth : Nat := 128

/-- What a JSON text says, if it is one value and nothing more. -/
def ofText? (text : String) : Option JsonTree := do
  let (tree, rest) ← readValue maxDepth text.toList
  if rest.all isBlank then some tree else none

end JsonTree

/-! ## What values say -/

namespace JsonValue

mutual

/-- What a value says. -/
def tree : JsonValue → JsonTree
  | null => .null
  | boolean value => .boolean value
  | natural value => .number (toString value)
  | decimal value => .number (Decimal.shortest value)
  | string text => .string text
  | array items => .array (itemTrees items)
  | object fields => .object (fieldTrees fields)

/-- What the items of an array say. -/
def itemTrees : List JsonValue → List JsonTree
  | [] => []
  | item :: rest => item.tree :: itemTrees rest

/-- What the fields of an object say. -/
def fieldTrees : List (String × JsonValue) → List (String × JsonTree)
  | [] => []
  | (name, value) :: rest => (name, value.tree) :: fieldTrees rest

end

theorem itemTrees_eq_map (items : List JsonValue) : itemTrees items = items.map tree := by
  induction items with
  | nil => rfl
  | cons item rest ih => rw [itemTrees, ih, List.map_cons]

theorem fieldTrees_eq_map (fields : List (String × JsonValue)) :
    fieldTrees fields = fields.map fun (name, value) => (name, value.tree) := by
  induction fields with
  | nil => rfl
  | cons field rest ih => rw [fieldTrees, ih, List.map_cons]

/-- The values in a value stand at most so many levels deep. -/
def Nests : Nat → JsonValue → Prop
  | 0, _ => False
  | levels + 1, array items => ∀ item ∈ items, Nests levels item
  | levels + 1, object fields => ∀ field ∈ fields, Nests levels field.2
  | _ + 1, _ => True

theorem renderFields_eq_map (indent : String) (fields : List (String × JsonValue)) :
    renderFields indent fields =
      fields.map fun (name, value) => indent ++ quote name ++ ": " ++ value.render indent := by
  induction fields with
  | nil => simp [renderFields]
  | cons field rest ih =>
      rcases field with ⟨name, value⟩
      simp [renderFields, ih]

/-- Members between brackets, which stand side by side where there are no members. -/
def between (opening closing : Char) (indent : String) (members : List String) : String :=
  if members.isEmpty then String.ofList [opening, closing]
  else block (String.singleton opening) (String.singleton closing) indent members

theorem render_array_between (indent : String) (items : List JsonValue) :
    (array items).render indent = between '[' ']' indent
      (items.map fun item => (indent ++ "  ") ++ item.render (indent ++ "  ")) := by
  cases items with
  | nil => rw [render]; rfl
  | cons first rest =>
      rw [render, renderItems_eq_map]
      rfl

theorem render_object_between (indent : String) (fields : List (String × JsonValue)) :
    (object fields).render indent = between '\x7b' '\x7d' indent
      (fields.map fun (name, value) =>
        (indent ++ "  ") ++ quote name ++ ": " ++ value.render (indent ++ "  ")) := by
  cases fields with
  | nil => rw [render]; rfl
  | cons first rest =>
      rw [render, renderFields_eq_map]
      rfl

end JsonValue

namespace JsonTree

/-- Behind a value the text does not go on with a number or a name. -/
def Ends (rest : List Char) : Prop :=
  ∀ char ∈ rest.head?, isWordChar char = false

open Decimal (Binary64 Digits)

variable {α ι : Type}

/-- A reader takes a value from a text, whatever blanks stand in front and whatever follows. -/
def Takes (read : TextReader α) (text : List Char) (value : α) : Prop :=
  ∀ blanks rest, (∀ char ∈ blanks, isBlank char = true) → Ends rest →
    read (blanks ++ text ++ rest) = some (value, rest)

theorem skipBlanks_append {blanks : List Char} (blank : ∀ char ∈ blanks, isBlank char = true)
    (text : List Char) : skipBlanks (blanks ++ text) = skipBlanks text :=
  List.dropWhile_append_of_pos blank

theorem skipBlanks_cons {char : Char} (solid : isBlank char = false) (rest : List Char) :
    skipBlanks (char :: rest) = char :: rest := by
  simp [skipBlanks, solid]

/-! ## Strings -/

theorem readString_plain {char : Char} (quote : char ≠ '"') (backslash : char ≠ '\\')
    (rest : List Char) : readString (char :: rest) = withChar char (readString rest) := by
  rw [readString] <;> simp [quote, backslash]

theorem hexValue?_hexDigits : ∀ code : Fin 0x20,
    (Text.hexDigits 4 code).toList.length = 4 ∧
      hexValue? (Text.hexDigits 4 code).toList = some code.val := by
  decide

theorem readString_hex {code : Nat} (control : code < 0x20) (rest : List Char) :
    readString ('\\' :: 'u' :: (Text.hexDigits 4 code).toList ++ rest) =
      withChar (Char.ofNat code) (readString rest) := by
  rcases hexValue?_hexDigits ⟨code, control⟩ with ⟨four, value⟩
  match digits : (Text.hexDigits 4 code).toList, four with
  | [first, second, third, fourth], _ =>
      rw [digits] at value
      simp [readString, value]

/-- A character is read as it is written. -/
theorem readString_escapeChar (char : Char) (rest : List Char) :
    readString (JsonValue.escapeChar char ++ rest) = withChar char (readString rest) := by
  unfold JsonValue.escapeChar
  split
  case h_8 quote backslash _ _ _ _ _ =>
    split
    · next control => rw [readString_hex control, Char.ofNat_toNat]
    · exact readString_plain quote backslash rest
  all_goals simp [readString, unescape?]

/-- A string is read as it is written. -/
theorem readString_quoted (text rest : List Char) :
    readString (text.flatMap JsonValue.escapeChar ++ '"' :: rest) = some (text, rest) := by
  induction text with
  | nil => simp [readString]
  | cons char text ih =>
      rw [List.flatMap_cons, List.append_assoc, readString_escapeChar, ih]
      rfl

/-! ## Numbers and names -/

/-- Every character of a text can stand in a number. -/
def Numeric (text : List Char) : Prop :=
  ∀ char ∈ text, isNumberChar char = true

theorem Numeric.append {first second : List Char} (front : Numeric first) (back : Numeric second) :
    Numeric (first ++ second) :=
  fun char member => (List.mem_append.1 member).elim (front char) (back char)

theorem numeric_toDigits (value : Nat) : Numeric (Nat.toDigits 10 value) := by
  intro char member
  have digit := Text.isDigit_of_mem_toDigits member
  simp [isNumberChar, digit]

theorem numeric_zeros (count : Nat) : Numeric (List.replicate count '0') := by
  intro char member
  rw [List.eq_of_mem_replicate member]
  decide

theorem numeric_integer (value : Int) : Numeric (toString value).toList := by
  cases value with
  | ofNat value => exact Text.toList_toString value ▸ numeric_toDigits value
  | negSucc value =>
      have sign : Numeric ['-'] := by simp [Numeric, isNumberChar]
      rw [show toString (Int.negSucc value) = "-" ++ toString (value + 1) from rfl,
        String.toList_append, Text.toList_toString]
      exact sign.append (numeric_toDigits (value + 1))

theorem numeric_display (number : Digits) : Numeric number.display.toList := by
  have digits := numeric_toDigits number.digits
  have wholes : Numeric ['.', '0'] := by simp [Numeric, isNumberChar]
  have parts : Numeric ['0', '.'] := by simp [Numeric, isNumberChar]
  have point : Numeric ['.'] := by simp [Numeric, isNumberChar]
  have mark : Numeric ['e'] := by simp [Numeric, isNumberChar]
  unfold Digits.display
  extract_lets text place mantissa
  replace digits : Numeric text := digits
  clear_value text
  split
  · simpa using (digits.append (numeric_zeros _)).append wholes
  split
  · have front : Numeric (text.take place.toNat) :=
      fun char member => digits char (List.mem_of_mem_take member)
    have back : Numeric (text.drop place.toNat) :=
      fun char member => digits char (List.mem_of_mem_drop member)
    simpa using front.append (point.append back)
  split
  · simpa using parts.append ((numeric_zeros _).append digits)
  · have scaled : Numeric mantissa.toList := by
      unfold mantissa
      split
      · simp [Numeric]
      · simpa using digits
      · have dot : isNumberChar '.' = true := point '.' (List.mem_singleton_self '.')
        simpa [Numeric, dot] using digits
    simpa [toString] using scaled.append (mark.append (numeric_integer (place - 1)))

theorem display_ne_nil (number : Digits) : number.display.toList ≠ [] := by
  unfold Digits.display
  extract_lets text place
  split
  · simp
  split
  · simp
  split <;> simp [toString]

theorem numeric_shortest (number : Binary64) : Numeric (Decimal.shortest number).toList := by
  unfold Decimal.shortest
  split
  · simp [Numeric, isNumberChar]
  · exact numeric_display _

theorem shortest_ne_nil (number : Binary64) : (Decimal.shortest number).toList ≠ [] := by
  unfold Decimal.shortest
  split
  · simp
  · exact display_ne_nil _

theorem isBlank_eq_false_of_isWordChar {char : Char} (word : isWordChar char = true) :
    isBlank char = false := by
  cases blank : isBlank char with
  | false => rfl
  | true =>
      have cases : char = ' ' ∨ char = '\n' ∨ char = '\r' ∨ char = '\t' := by
        simpa [isBlank, or_assoc] using blank
      rcases cases with rfl | rfl | rfl | rfl <;> simp [isWordChar, isNumberChar] at word

theorem readWord_append {word rest : List Char} (chars : ∀ char ∈ word, isWordChar char = true)
    (ends : Ends rest) : readWord (word ++ rest) = (ofWord? word).map fun tree => (tree, rest) := by
  rw [readWord, List.takeWhile_append_of_pos chars, List.dropWhile_append_of_pos chars]
  cases rest with
  | nil => simp
  | cons next rest =>
      have closes : isWordChar next = false := ends next rfl
      simp [closes]

/-- A number or a name is taken from a text as a value. -/
theorem takes_word {word : List Char} {tree : JsonTree} (levels : Nat)
    (chars : ∀ char ∈ word, isWordChar char = true) (known : ofWord? word = some tree) :
    Takes (readValue (levels + 1)) word tree := by
  intro blanks rest blank ends
  have outcome := readWord_append chars ends
  rw [known, Option.map_some] at outcome
  cases word with
  | nil => simp [ofWord?] at known
  | cons first word =>
      have start : isWordChar first = true := chars first List.mem_cons_self
      have differs : first ≠ '"' ∧ first ≠ '[' ∧ first ≠ '\x7b' := by
        refine ⟨?_, ?_, ?_⟩ <;> rintro rfl <;> simp [isWordChar, isNumberChar] at start
      rw [readValue, List.append_assoc, skipBlanks_append blank, List.cons_append,
        skipBlanks_cons (isBlank_eq_false_of_isWordChar start)]
      split <;> simp_all

theorem takes_number {text : String} (levels : Nat) (filled : text.toList ≠ [])
    (chars : Numeric text.toList) : Takes (readValue (levels + 1)) text.toList (.number text) := by
  have numeric : text.toList.all isNumberChar = true := List.all_eq_true.2 chars
  refine takes_word levels (fun char member => ?_) ?_
  · simp [isWordChar, chars char member]
  · rw [ofWord?, if_pos (by simp_all), String.ofList_toList]

/-- A string is taken from a text as a value. -/
theorem takes_quote (text : String) (levels : Nat) :
    Takes (readValue (levels + 1)) (JsonValue.quote text).toList (.string text) := by
  intro blanks rest blank ends
  have opened : skipBlanks ((JsonValue.quote text).toList ++ rest) =
      '"' :: (text.toList.flatMap JsonValue.escapeChar ++ '"' :: rest) := by
    simp [JsonValue.quote, skipBlanks_cons, isBlank]
  rw [readValue, List.append_assoc, skipBlanks_append blank, opened]
  simp [readString_quoted]

/-! ## Arrays and objects -/

variable {read : TextReader α} {closing : Char}

theorem readMembers_of_comma {text rest more : List Char} {member : α}
    (front : read text = some (member, rest)) (comma : skipBlanks rest = ',' :: more)
    (differs : closing ≠ ',') (fuel : Nat) :
    readMembers read closing (fuel + 1) text =
      (readMembers read closing fuel more).map fun (members, rest) => (member :: members, rest) := by
  cases outcome : readMembers read closing fuel more <;>
    simp [readMembers, front, comma, differs.symm, outcome]

theorem readMembers_of_closing {text rest after : List Char} {member : α}
    (front : read text = some (member, rest)) (closes : skipBlanks rest = closing :: after)
    (fuel : Nat) : readMembers read closing (fuel + 1) text = some ([member], after) := by
  simp [readMembers, front, closes]

/-- A reader that finds the end of a list finds no member. -/
def RefusesAt (read : TextReader α) (closing : Char) : Prop :=
  ∀ text, (skipBlanks text).head? = some closing → read text = none

variable {write : ι → List Char} {value : ι → α}

/-- Members with commas between them are read up to the closing character. -/
theorem readMembers_intercalate (differs : closing ≠ ',') {tail after : List Char}
    (ends : Ends tail) (closes : skipBlanks tail = closing :: after) (members : List ι)
    (takes : ∀ member ∈ members, Takes read (write member) (value member)) (filled : members ≠ [])
    {blanks : List Char} (blank : ∀ char ∈ blanks, isBlank char = true) {fuel : Nat}
    (enough : members.length ≤ fuel) :
    readMembers read closing fuel
        (blanks ++ [',', '\n'].intercalate (members.map write) ++ tail) =
      some (members.map value, after) := by
  -- From the second member on, the line feed behind a comma is a blank in front.
  induction members generalizing blanks fuel with
  | nil => exact absurd rfl filled
  | cons member rest ih =>
      rcases fuel with _ | fuel
      · simp at enough
      have here := takes member List.mem_cons_self blanks
      cases rest with
      | nil => simpa using readMembers_of_closing (here tail blank ends) closes fuel
      | cons next others =>
          generalize lines_eq : [',', '\n'].intercalate ((next :: others).map write) ++ tail = lines
          have later : readMembers read closing fuel ('\n' :: lines) =
              some ((next :: others).map value, after) := by
            subst lines_eq
            exact ih (fun member mem => takes member (List.mem_cons_of_mem _ mem)) (by simp)
              (by simp [isBlank] : ∀ char ∈ ['\n'], isBlank char = true)
              (Nat.le_of_succ_le_succ enough)
          have comma : Ends (',' :: '\n' :: lines) := by simp [Ends, isWordChar, isNumberChar]
          have step := readMembers_of_comma (here _ blank comma)
            (skipBlanks_cons (by simp [isBlank]) _) differs fuel
          rw [later] at step
          simpa [List.intercalate_cons_cons, ← lines_eq] using step

theorem length_le_length_intercalate {separator : List Char} (filled : separator ≠ [])
    (texts : List (List Char)) : texts.length ≤ (separator.intercalate texts).length + 1 := by
  induction texts with
  | nil => simp
  | cons text rest ih =>
      cases rest with
      | nil => simp
      | cons next others =>
          have long := List.length_pos_iff.2 filled
          rw [List.intercalate_cons_cons, List.length_cons]
          simp only [List.length_append]
          omega

theorem readMembers_eq_none {text : List Char} (refused : read text = none) (fuel : Nat) :
    readMembers read closing fuel text = none := by
  cases fuel <;> simp [readMembers, refused]

/-- A character that ends lists. -/
structure Closes (closing : Char) : Prop where
  notComma : closing ≠ ','
  solid : isBlank closing = false

/-- A list without members is read. -/
theorem readList_nil (closes : Closes closing) (rest : List Char) :
    readList read closing (closing :: rest) = some ([], rest) := by
  simp [readList, skipBlanks_cons closes.solid]

/-- The lines of a list are read up to the closing character. -/
theorem readList_lines (closes : Closes closing) (refuses : RefusesAt read closing)
    {members : List ι} (filled : members ≠ [])
    (takes : ∀ member ∈ members, Takes read (write member) (value member)) {indent : List Char}
    (blank : ∀ char ∈ indent, isBlank char = true) (rest : List Char) :
    readList read closing ('\n' :: ([',', '\n'].intercalate (members.map write) ++
        '\n' :: (indent ++ closing :: rest))) =
      some (members.map value, rest) := by
  generalize text_eq : '\n' :: ([',', '\n'].intercalate (members.map write) ++
    '\n' :: (indent ++ closing :: rest)) = text
  have outcome : readMembers read closing text.length text = some (members.map value, rest) := by
    have tail : skipBlanks ('\n' :: (indent ++ closing :: rest)) = closing :: rest := by
      have lineBlank : ∀ char ∈ '\n' :: indent, isBlank char = true := by simpa [isBlank] using blank
      rw [← List.cons_append, skipBlanks_append lineBlank, skipBlanks_cons closes.solid]
    have ends : Ends ('\n' :: (indent ++ closing :: rest)) := by
      simp [Ends, isWordChar, isNumberChar]
    have enough : members.length ≤ text.length := by
      have lines := length_le_length_intercalate (List.cons_ne_nil ',' ['\n']) (members.map write)
      rw [List.length_map] at lines
      simp only [← text_eq, List.length_cons, List.length_append]
      omega
    rw [← text_eq] at enough ⊢
    exact readMembers_intercalate closes.notComma ends tail members takes filled
      (by simp [isBlank] : ∀ char ∈ ['\n'], isBlank char = true) enough
  -- A list that closes at once has no member to be read, but this one has.
  have unclosed : (skipBlanks text).head? ≠ some closing := by
    intro closed
    rw [readMembers_eq_none (refuses text closed)] at outcome
    exact Option.some_ne_none _ outcome.symm
  rw [readList, if_neg unclosed, outcome]

/-! ## Whole values -/

theorem readValue_refusesAt (levels : Nat) : RefusesAt (readValue levels) ']' := by
  intro text closed
  rcases levels with _ | levels
  · rfl
  · rcases opened : skipBlanks text with _ | ⟨first, rest⟩
    · simp [opened] at closed
    · obtain rfl : first = ']' := by simpa [opened] using closed
      simp [readValue, opened, readWord, ofWord?, isWordChar, isNumberChar]

theorem readField_refusesAt (read : TextReader α) : RefusesAt (readField read) '\x7d' := by
  intro text closed
  rcases opened : skipBlanks text with _ | ⟨first, rest⟩
  · simp [opened] at closed
  · obtain rfl : first = '\x7d' := by simpa [opened] using closed
    simp [readField, opened]

theorem takes_field {text : List Char} {member : α} (takes : Takes read text member)
    (name : String) :
    Takes (readField read) ((JsonValue.quote name).toList ++ ':' :: ' ' :: text) (name, member) := by
  intro blanks rest blank ends
  have opened : skipBlanks ((JsonValue.quote name).toList ++ ':' :: ' ' :: text ++ rest) =
      '"' :: (name.toList.flatMap JsonValue.escapeChar ++ '"' :: ':' :: ' ' :: (text ++ rest)) := by
    simp [JsonValue.quote, skipBlanks_cons, isBlank]
  have behind : read (' ' :: (text ++ rest)) = some (member, rest) :=
    takes [' '] rest (by simp [isBlank]) ends
  rw [readField, List.append_assoc, skipBlanks_append blank, opened]
  simp [readString_quoted, skipBlanks_cons, isBlank, behind]

theorem Takes.indented {text : List Char} {member : α} (takes : Takes read text member)
    {indent : List Char} (blank : ∀ char ∈ indent, isBlank char = true) :
    Takes read (indent ++ text) member := by
  intro blanks rest before ends
  have all : ∀ char ∈ blanks ++ indent, isBlank char = true := by
    simpa [or_imp, forall_and] using ⟨before, blank⟩
  simpa using takes (blanks ++ indent) rest all ends

theorem blank_deeper {indent : String} (blank : ∀ char ∈ indent.toList, isBlank char = true) :
    ∀ char ∈ (indent ++ "  ").toList, isBlank char = true := by
  simpa [or_imp, forall_and, isBlank] using blank

/-- Members are read from between brackets. -/
theorem readList_between (closes : Closes closing) (refuses : RefusesAt read closing)
    {members : List ι} {text : ι → String}
    (takes : ∀ member ∈ members, Takes read (text member).toList (value member)) {indent : String}
    (blank : ∀ char ∈ indent.toList, isBlank char = true) (opening : Char) (rest : List Char) :
    ∃ inner, (JsonValue.between opening closing indent (members.map text)).toList ++ rest =
        opening :: inner ∧
      readList read closing inner = some (members.map value, rest) := by
  cases members with
  | nil => exact ⟨closing :: rest, by simp [JsonValue.between], readList_nil closes rest⟩
  | cons first others =>
      refine ⟨_, ?_, readList_lines closes refuses (List.cons_ne_nil first others) takes blank rest⟩
      simp [JsonValue.between, JsonValue.block, String.toList_intercalate, Function.comp_def]

theorem takes_array {levels : Nat} {items : List JsonValue} {indent : String}
    (takes : ∀ item ∈ items,
      Takes (readValue levels) (item.render (indent ++ "  ")).toList item.tree)
    (blank : ∀ char ∈ indent.toList, isBlank char = true) :
    Takes (readValue (levels + 1)) ((JsonValue.array items).render indent).toList
      (.array (items.map JsonValue.tree)) := by
  intro blanks rest before ends
  have closes : Closes ']' := ⟨by decide, by decide⟩
  have lines : ∀ item ∈ items,
      Takes (readValue levels) ((indent ++ "  ") ++ item.render (indent ++ "  ")).toList item.tree :=
    fun item member => by simpa using (takes item member).indented (blank_deeper blank)
  rcases readList_between closes (readValue_refusesAt levels) lines blank '[' rest with
    ⟨inner, shape, outcome⟩
  rw [readValue, List.append_assoc, skipBlanks_append before, JsonValue.render_array_between, shape,
    skipBlanks_cons (by decide)]
  simp [outcome]

theorem takes_object {levels : Nat} {fields : List (String × JsonValue)} {indent : String}
    (takes : ∀ field ∈ fields,
      Takes (readValue levels) (field.2.render (indent ++ "  ")).toList field.2.tree)
    (blank : ∀ char ∈ indent.toList, isBlank char = true) :
    Takes (readValue (levels + 1)) ((JsonValue.object fields).render indent).toList
      (.object (fields.map fun (name, value) => (name, value.tree))) := by
  intro blanks rest before ends
  have closes : Closes '\x7d' := ⟨by decide, by decide⟩
  have lines : ∀ field ∈ fields, Takes (readField (readValue levels))
      ((indent ++ "  ") ++ JsonValue.quote field.1 ++ ": " ++
        field.2.render (indent ++ "  ")).toList (field.1, field.2.tree) :=
    fun field member => by
      simpa using (takes_field (takes field member) field.1).indented (blank_deeper blank)
  rcases readList_between closes (readField_refusesAt (readValue levels)) lines blank '\x7b' rest with
    ⟨inner, shape, outcome⟩
  rw [readValue, List.append_assoc, skipBlanks_append before, JsonValue.render_object_between, shape,
    skipBlanks_cons (by decide)]
  simp [outcome]

/-- A value is taken from its text. -/
theorem takes_render {levels : Nat} {value : JsonValue} (nests : value.Nests levels)
    {indent : String} (blank : ∀ char ∈ indent.toList, isBlank char = true) :
    Takes (readValue levels) (value.render indent).toList value.tree := by
  induction levels generalizing value indent with
  | zero => exact nests.elim
  | succ levels ih =>
      cases value with
      | null =>
          rw [JsonValue.render]
          exact takes_word levels (by simp [isWordChar, isNumberChar]) rfl
      | boolean value =>
          cases value with
          | true =>
              rw [JsonValue.render]
              exact takes_word levels (by simp [isWordChar, isNumberChar]) rfl
          | false =>
              rw [JsonValue.render]
              exact takes_word levels (by simp [isWordChar, isNumberChar]) rfl
      | natural value =>
          rw [JsonValue.render, JsonValue.tree]
          have digits := Text.toList_toString value
          exact takes_number levels (digits ▸ Nat.toDigits_ne_nil) (digits ▸ numeric_toDigits value)
      | decimal value =>
          rw [JsonValue.render, JsonValue.tree]
          exact takes_number levels (shortest_ne_nil value) (numeric_shortest value)
      | string text =>
          rw [JsonValue.render, JsonValue.tree]
          exact takes_quote text levels
      | array items =>
          rw [JsonValue.tree, JsonValue.itemTrees_eq_map]
          exact takes_array (fun item member => ih (nests item member) (blank_deeper blank)) blank
      | object fields =>
          rw [JsonValue.tree, JsonValue.fieldTrees_eq_map]
          exact takes_object (fun field member => ih (nests field member) (blank_deeper blank)) blank

end JsonTree

namespace JsonValue

/-- A document is read back into what its value says. -/
theorem ofText?_document {value : JsonValue} (nests : value.Nests JsonTree.maxDepth) :
    JsonTree.ofText? value.document = some value.tree := by
  have ends : JsonTree.Ends ['\n'] := by
    simp [JsonTree.Ends, JsonTree.isWordChar, JsonTree.isNumberChar]
  have noIndent : ∀ char ∈ "".toList, JsonTree.isBlank char = true := by simp
  have outcome : JsonTree.readValue JsonTree.maxDepth value.document.toList =
      some (value.tree, ['\n']) := by
    rw [document, String.toList_append]
    exact JsonTree.takes_render nests noIndent [] ['\n'] (List.forall_mem_nil _) ends
  have blank : ['\n'].all JsonTree.isBlank = true := by simp [JsonTree.isBlank]
  rw [JsonTree.ofText?, outcome]
  simp only [Option.bind_eq_bind, Option.bind_some, blank, if_true]

end JsonValue

end ApiCoverage
