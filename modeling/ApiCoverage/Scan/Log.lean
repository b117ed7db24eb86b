import ApiCoverage.Exclusion
import ApiCoverage.Failure
import ApiCoverage.MethodKey

/-!
# The scan log

What a scan leaves out is logged: files that are no usable class files, folders whose members cannot
be listed, method bodies that cannot be decoded to their end, and methods that the exclusion policy
drops. Logs of consecutive parts of a scan are joined. A logged step may fail, and what it logged
before the failure stays.
-/

namespace ApiCoverage

/-- Why a file with the extension of class files is not scanned, or a folder not walked. -/
inductive SkipReason where
  | linkNotFollowed
  | unreadable (fault : FileFault)
  /-- The members of the folder at a path cannot be listed. -/
  | unlisted (path : Path) (fault : FileFault)
  | notClassFile
  | corrupt (fault : ClassFile.Fault)
  deriving DecidableEq, Repr

/-- The words for a reason. -/
def SkipReason.words : SkipReason → String
  | linkNotFollowed => "symbolic link not followed"
  | unreadable fault => fault.message
  | unlisted path fault => s!"IO error for operation on {path}: {fault.message}"
  | notClassFile => "not a class file"
  | corrupt fault => fault.message

/-- Something that a scan leaves out. -/
inductive ScanEvent where
  | unitSkipped (path : Path) (reason : SkipReason)
  /-- The code of a method cannot be decoded from an offset on; what stands before counts. -/
  | methodSkipped (unit method : String) (offset : Nat) (fault : ClassFile.Fault)
  | methodExcluded (surface : String) (key : MethodKey) (reason : ExclusionReason)
  /-- No surface has a method that is tracked. -/
  | noTargets
  deriving DecidableEq, Repr

/-- What is logged, in order, and how many class files were scanned. -/
structure ScanLog where
  events : List ScanEvent
  unitsScanned : Nat
  deriving DecidableEq, Repr

namespace ScanLog

/-- The log of nothing. -/
def empty : ScanLog :=
  ⟨[], 0⟩

/-- The log of one event. -/
def event (event : ScanEvent) : ScanLog :=
  ⟨[event], 0⟩

/-- The log of one part after that of another. -/
def append (first second : ScanLog) : ScanLog :=
  ⟨first.events ++ second.events, first.unitsScanned + second.unitsScanned⟩

instance : Append ScanLog := ⟨append⟩

/-- The paths of the files and folders that were skipped. -/
def skippedUnits (log : ScanLog) : List Path :=
  log.events.filterMap fun
    | .unitSkipped path _ => some path
    | _ => none

/-- The methods that were excluded, with their surfaces and the reasons. -/
def exclusions (log : ScanLog) : List (String × MethodKey × ExclusionReason) :=
  log.events.filterMap fun
    | .methodExcluded surface key reason => some (surface, key, reason)
    | _ => none

end ScanLog

/-- A step with its log and its outcome. -/
structure Logged (α : Type) where
  log : ScanLog
  outcome : Except Failure α

namespace Logged

variable {α β : Type}

/-- A step that logs an event. -/
def event (event : ScanEvent) : Logged Unit :=
  ⟨.event event, .ok ()⟩

/-- A step that fails. -/
def fail (failure : Failure) : Logged α :=
  ⟨.empty, .error failure⟩

/-- A step that logs nothing. -/
def ofExcept (outcome : Except Failure α) : Logged α :=
  ⟨.empty, outcome⟩

/-- A step after another, unless that one fails. -/
def andThen (first : Logged α) (second : α → Logged β) : Logged β :=
  match first.outcome with
  | .error failure => ⟨first.log, .error failure⟩
  | .ok value =>
      let next := second value
      ⟨first.log ++ next.log, next.outcome⟩

instance : Monad Logged where
  pure value := ⟨.empty, .ok value⟩
  bind := andThen

end Logged

end ApiCoverage
