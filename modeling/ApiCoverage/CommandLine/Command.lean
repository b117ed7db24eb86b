import ApiCoverage.CommandLine.Switch
import ApiCoverage.Project.Options

/-!
# Commands

A command line names one of two commands, to scan a folder or to inspect a class file, with the
switches of that command. It may also ask for help or for the version. Items count from left to
right: what comes first of a request for help and a misuse decides.
-/

namespace ApiCoverage.CommandLine

/-- What a command line asks for. -/
inductive Command where
  | help
  | version
  /-- To scan, with a project file other than the one in the working folder if there is one. -/
  | scan (verbose : Bool) (projectFile : Option Path) (options : ScanOptions)
  | inspect (verbose : Bool) (file : Path)
  deriving DecidableEq, Repr

/-- What ends the reading of a command line early. -/
inductive Stop where
  | answer (command : Command)
  | misuse (cause : Misuse)
  deriving DecidableEq, Repr

/-- A step of reading a command line. -/
abbrev Step := Except Stop

/-- Stops at a misuse. -/
def refuse {α : Type} (cause : Misuse) : Step α :=
  .error (.misuse cause)

/-- Sets a value that may be given once. -/
def setOnce {α : Type} (switch : Switch) (current : Option α) (value : α) : Step (Option α) :=
  match current with
  | some _ => refuse (.repeated switch)
  | none => .ok (some value)

/-- Turns on what may be turned on once. -/
def turnOn (switch : Switch) (current : Bool) : Step Bool :=
  if current then refuse (.repeated switch) else .ok true

/-- A path, which must not be empty. -/
def pathValue (place text : String) : Step Path :=
  if text.isEmpty then refuse (.emptyPath place) else .ok text

/-- Acts on items from left to right, and stops at the misuse that ended them. -/
def Items.run {σ : Type} (items : Items) (act : σ → Item → Step σ) (start : σ) : Step σ := do
  let final ← items.list.foldlM act start
  match items.misuse with
  | some cause => refuse cause
  | none => return final

/-- What a scan is asked for with. -/
structure ScanArguments where
  verbose : Bool := false
  projectFile : Option Path := none
  options : ScanOptions := {}

namespace ScanArguments

/-- The switches of a scan. -/
def allowed : List Switch :=
  [.help, .verbose, .config, .surfacesFile, .exclusions, .declarations, .classpath, .format,
    .output, .title, .linkBase, .keepObjectMethods]

/-- Takes the value of a switch into the options. -/
def setValue (options : ScanOptions) (switch : Switch) (text : String) : Step ScanOptions := do
  match switch with
  | .surfacesFile =>
      let surfacesFile ← setOnce switch options.surfacesFile (← pathValue switch.name text)
      return { options with surfacesFile }
  | .exclusions =>
      let exclusions ← setOnce switch options.exclusions (← pathValue switch.name text)
      return { options with exclusions }
  | .declarations =>
      return { options with
        declarations := options.declarations ++ [← pathValue switch.name text] }
  | .classpath =>
      return { options with classpath := options.classpath ++ [← pathValue switch.name text] }
  | .format =>
      match ReportFormat.ofWord? text with
      | none => refuse (.badValue switch text)
      | some format => return { options with format := ← setOnce switch options.format format }
  | .output =>
      return { options with
        output := ← setOnce switch options.output (← pathValue switch.name text) }
  | .title => return { options with title := ← setOnce switch options.title text }
  | .linkBase => return { options with linkBase := ← setOnce switch options.linkBase text }
  | _ => refuse (.unexpectedValue switch)

/-- Takes an item into the arguments. The first plain argument is the root, and the others are
surfaces. -/
def take (arguments : ScanArguments) : Item → Step ScanArguments
  | .switch .help => .error (.answer .help)
  | .switch .verbose => do
      return { arguments with verbose := ← turnOn .verbose arguments.verbose }
  | .switch .keepObjectMethods => do
      let keepObjectMethods ← turnOn .keepObjectMethods arguments.options.keepObjectMethods
      return { arguments with options := { arguments.options with keepObjectMethods } }
  | .switch switch => refuse (.missingValue switch)
  | .value .config text => do
      let path ← pathValue Switch.config.name text
      return { arguments with projectFile := ← setOnce .config arguments.projectFile path }
  | .value switch text => do
      return { arguments with options := ← setValue arguments.options switch text }
  | .plain text => do
      let options := arguments.options
      if options.root.isNone then
        return { arguments with options := { options with root := some (← pathValue "root" text) } }
      else
        return { arguments with options := { options with surfaces := options.surfaces ++ [text] } }

end ScanArguments

/-- What an inspection is asked for with. -/
structure InspectArguments where
  verbose : Bool := false
  file : Option Path := none

namespace InspectArguments

/-- The switches of an inspection. -/
def allowed : List Switch :=
  [.help, .verbose]

/-- Takes an item into the arguments. -/
def take (arguments : InspectArguments) : Item → Step InspectArguments
  | .switch .help => .error (.answer .help)
  | .switch .verbose => do
      return { arguments with verbose := ← turnOn .verbose arguments.verbose }
  | .switch switch => refuse (.unknownSwitch s!"--{switch.name}")
  | .value switch _ => refuse (.unexpectedValue switch)
  | .plain text =>
      match arguments.file with
      | some _ => refuse (.unexpectedArgument text)
      | none => do return { arguments with file := some (← pathValue "file" text) }

end InspectArguments

namespace Command

/-- The switches before a command. -/
def allowed : List Switch :=
  [.help, .version, .verbose]

/-- Whether an argument before a command is a switch and not the command. -/
def isSwitchLike (argument : String) : Bool :=
  ArgumentForm.of argument != .plain

/-- Takes an item before a command: whether the command is verbose. -/
def takeFront (verbose : Bool) : Item → Step Bool
  | .switch .help => .error (.answer .help)
  | .switch .version => .error (.answer .version)
  | .switch .verbose => turnOn .verbose verbose
  | .switch switch => refuse (.unknownSwitch s!"--{switch.name}")
  | .value switch _ => refuse (.unexpectedValue switch)
  | .plain text => refuse (.unexpectedArgument text)

/-- The scan that arguments ask for. -/
def readScan (verbose : Bool) (arguments : List String) : Step Command := do
  let items := readItems ScanArguments.allowed .plain arguments
  let final ← items.run ScanArguments.take {}
  return .scan (verbose || final.verbose) final.projectFile final.options

/-- The inspection that arguments ask for. -/
def readInspect (verbose : Bool) (arguments : List String) : Step Command := do
  let items := readItems InspectArguments.allowed .plain arguments
  let final ← items.run InspectArguments.take {}
  match final.file with
  | none => refuse (.missingArgument "file")
  | some file => return .inspect (verbose || final.verbose) file

/-- A request for help in words: on everything, or on one command. -/
def readHelp : List String → Step Command
  | [] => .ok .help
  | ["scan"] => .ok .help
  | ["inspect"] => .ok .help
  | ["help"] => .ok .help
  | "help" :: other :: _ => refuse (.unknownCommand other)
  | [word] => refuse (.unknownCommand word)
  | _ :: other :: _ => refuse (.unexpectedArgument other)

/-- What a command line asks for, or what ends its reading early. -/
def read (arguments : List String) : Step Command := do
  let front := arguments.takeWhile isSwitchLike
  let verbose ← (readItems allowed .plain front).run takeFront false
  if front.contains "--" then
    refuse .noCommand
  else
    match arguments.dropWhile isSwitchLike with
    | [] => refuse .noCommand
    | "scan" :: rest => readScan verbose rest
    | "inspect" :: rest => readInspect verbose rest
    | "help" :: rest => readHelp rest
    | word :: _ => refuse (.unknownCommand word)

/-- What a command line asks for, or why it makes no sense. -/
def ofArguments (arguments : List String) : Except Misuse Command :=
  match read arguments with
  | .ok command => .ok command
  | .error (.answer command) => .ok command
  | .error (.misuse cause) => .error cause

end Command

end ApiCoverage.CommandLine
