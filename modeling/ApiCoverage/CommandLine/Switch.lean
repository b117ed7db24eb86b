/-!
# Command line switches

A switch is written `--name`, and some have a one-letter form `-n`. It takes no value, one value or
any positive number of values. A value follows as the next argument, or is attached after `=` or,
behind a letter, directly. Letters of switches without a value can be written together.

Reading turns arguments into items from left to right and ends at the first argument that has no
meaning; the items before it stand. Attached values come alone; otherwise a switch with many values
takes every argument up to the next one that begins with `-`. Everything after `--` is a plain
argument, and so is a lone `-`.
-/

namespace ApiCoverage.CommandLine

/-- How many values a switch takes. -/
inductive Arity where
  | none
  | one
  | many
  deriving DecidableEq, Repr

/-- The switches of all commands. -/
inductive Switch where
  | help
  | version
  | verbose
  | config
  | surfacesFile
  | exclusions
  | declarations
  | classpath
  | format
  | output
  | title
  | linkBase
  | keepObjectMethods
  deriving DecidableEq, Repr

namespace Switch

/-- The long name, without its dashes. -/
def name : Switch → String
  | help => "help"
  | version => "version"
  | verbose => "verbose"
  | config => "config"
  | surfacesFile => "surfaces-file"
  | exclusions => "exclusions"
  | declarations => "declarations"
  | classpath => "classpath"
  | format => "format"
  | output => "output"
  | title => "title"
  | linkBase => "link-base"
  | keepObjectMethods => "keep-object-methods"

/-- The letter of the short form. -/
def letter? : Switch → Option Char
  | help => some 'h'
  | version => some 'V'
  | verbose => some 'v'
  | output => some 'o'
  | _ => none

/-- How many values the switch takes. -/
def arity : Switch → Arity
  | help | version | verbose | keepObjectMethods => .none
  | declarations | classpath => .many
  | _ => .one

end Switch

/-- Why arguments make no sense. -/
inductive Misuse where
  | noCommand
  | unknownCommand (word : String)
  | unknownSwitch (text : String)
  | unexpectedValue (switch : Switch)
  | missingValue (switch : Switch)
  | badValue (switch : Switch) (text : String)
  | repeated (switch : Switch)
  | emptyPath (place : String)
  | unexpectedArgument (text : String)
  | missingArgument (place : String)
  deriving DecidableEq, Repr

/-- The words for a misuse. -/
def Misuse.words : Misuse → String
  | noCommand => "a command is required"
  | unknownCommand word => s!"unknown command '{word}'"
  | unknownSwitch text => s!"unknown switch '{text}'"
  | unexpectedValue switch => s!"'--{switch.name}' takes no value"
  | missingValue switch => s!"'--{switch.name}' needs a value"
  | badValue switch text => s!"'{text}' is no value for '--{switch.name}'"
  | repeated switch => s!"'--{switch.name}' is given more than once"
  | emptyPath place => s!"the path for '{place}' is empty"
  | unexpectedArgument text => s!"unexpected argument '{text}'"
  | missingArgument place => s!"'{place}' is required"

/-- What an argument means. -/
inductive Item where
  | switch (switch : Switch)
  | value (switch : Switch) (text : String)
  | plain (text : String)
  deriving DecidableEq, Repr

/-- The items of arguments, up to their end or to the first misuse. -/
structure Items where
  list : List Item
  misuse : Option Misuse
  deriving DecidableEq, Repr

namespace Items

/-- The items with others before them. -/
def after (front : List Item) (items : Items) : Items :=
  ⟨front ++ items.list, items.misuse⟩

/-- No items but a misuse. -/
def fault (misuse : Misuse) : Items :=
  ⟨[], some misuse⟩

end Items

/-- What the next plain argument belongs to. -/
inductive Expecting where
  /-- It stands for itself. -/
  | plain
  /-- It must be a value of a switch. -/
  | value (switch : Switch)
  /-- It is a further value of a switch. -/
  | more (switch : Switch)
  /-- Every argument stands for itself. -/
  | onlyPlain
  deriving DecidableEq, Repr

/-- The form of an argument. -/
inductive ArgumentForm where
  | separator
  | long (name : String) (value : Option String)
  | letters (letters : List Char)
  | plain
  deriving DecidableEq, Repr

namespace ArgumentForm

/-- A long switch and the value attached to it. -/
def ofLong (chars : List Char) : ArgumentForm :=
  let name := String.ofList (chars.takeWhile (· != '='))
  match chars.dropWhile (· != '=') with
  | [] => long name none
  | _ :: value => long name (some (String.ofList value))

/-- The form of an argument. -/
def of (argument : String) : ArgumentForm :=
  match argument.toList with
  | ['-', '-'] => separator
  | '-' :: '-' :: rest => ofLong rest
  | ['-'] => plain
  | '-' :: rest => letters rest
  | _ => plain

end ArgumentForm

/-- What a group of letters, or a long switch, means, and what comes next. -/
structure SwitchReading where
  items : List Item
  next : Except Misuse Expecting

namespace SwitchReading

/-- A switch with its attached value, if it has one. -/
def ofSwitch (switch : Switch) (attached : Option String) : SwitchReading :=
  match switch.arity, attached with
  | .none, none => ⟨[.switch switch], .ok .plain⟩
  | .none, some _ => ⟨[], .error (.unexpectedValue switch)⟩
  | _, some value => ⟨[.value switch value], .ok .plain⟩
  | _, none => ⟨[], .ok (.value switch)⟩

/-- A long switch. -/
def ofLong (allowed : List Switch) (name : String) (attached : Option String) : SwitchReading :=
  match allowed.find? fun switch => switch.name == name with
  | none => ⟨[], .error (.unknownSwitch s!"--{name}")⟩
  | some switch => ofSwitch switch attached

/-- The value that letters after a switch make up. -/
def attachedValue : List Char → Option String
  | [] => none
  | '=' :: value => some (String.ofList value)
  | value => some (String.ofList value)

/-- A group of letters. -/
def ofLetters (allowed : List Switch) : List Char → SwitchReading
  | [] => ⟨[], .ok .plain⟩
  | letter :: rest =>
      match allowed.find? fun switch => switch.letter? == some letter with
      | none => ⟨[], .error (.unknownSwitch (String.ofList ['-', letter]))⟩
      | some switch =>
          if switch.arity = .none then
            let others := ofLetters allowed rest
            ⟨.switch switch :: others.items, others.next⟩
          else
            ofSwitch switch (attachedValue rest)

end SwitchReading

/-- The items of arguments among which some switches are allowed. -/
def readItems (allowed : List Switch) : Expecting → List String → Items
  | .value switch, [] => .fault (.missingValue switch)
  | _, [] => ⟨[], none⟩
  | .onlyPlain, argument :: rest => (readItems allowed .onlyPlain rest).after [.plain argument]
  | expecting, argument :: rest =>
      match ArgumentForm.of argument, expecting with
      | .plain, .value switch =>
          let next := if switch.arity = .many then .more switch else .plain
          (readItems allowed next rest).after [.value switch argument]
      | .plain, .more switch =>
          (readItems allowed (.more switch) rest).after [.value switch argument]
      | .plain, _ => (readItems allowed .plain rest).after [.plain argument]
      | _, .value switch => .fault (.missingValue switch)
      | .separator, _ => readItems allowed .onlyPlain rest
      | .long name attached, _ => readSwitch (.ofLong allowed name attached) rest
      | .letters letters, _ => readSwitch (.ofLetters allowed letters) rest
where
  /-- The items of a switch and of the arguments after it. -/
  readSwitch (reading : SwitchReading) (rest : List String) : Items :=
    match reading.next with
    | .error misuse => ⟨reading.items, some misuse⟩
    | .ok expecting => (readItems allowed expecting rest).after reading.items

end ApiCoverage.CommandLine
