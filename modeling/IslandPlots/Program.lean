import IslandPlots.Allocator.Open
import IslandPlots.Audit
import IslandPlots.Command
import IslandPlots.Diary

/-!
# The programs

The three programs of the package, as functions of the disk, the environment, the arguments
and the time: the allocator program carries out one request, `log_audit` audits a log
without changing it, and `spiral_dump` prints the beginning of the spiral.
-/

namespace IslandPlots

/-- What is left of a run of a program. -/
structure Run where
  exitCode : Nat
  /-- The lines on the standard output. -/
  output : List String := []
  /-- The lines on the standard error output. -/
  errors : List String := []
  disk : Disk
deriving DecidableEq

/-- The text of lines that are printed. -/
def printed (lines : List String) : String :=
  String.join (lines.map (· ++ "\n"))

/-- The names of the variables that the programs read. -/
def variableNames : List String :=
  [Config.spacingVariable, Config.radiusVariable, Config.storageVariable]

/-- The files below the storage directory that the programs read or write. -/
def filesOf (config : Config) : List String :=
  let diary := Diary.directory config.storageDir
  [Path.join diary Diary.allocationsName, Path.join diary Diary.errorsName,
    Path.join config.storageDir logFileName, Path.join config.storageDir FileJournal.draftName]

/-! ### The allocator program -/

namespace AllocatorProgram

/-- A run that ends with a failure after `output` and `errors` have been printed. -/
def failed (message : String) (disk : Disk) (output errors : List String := []) : Run where
  exitCode := 1
  output := output
  errors := errors ++ [s!"skyplot: {message}"]
  disk := disk

/-- The lines that describe the state in which a request finds the allocator. -/
def summary (root : String) (settings : Settings) (stats : Allocator.Stats) : List String :=
  ["skyplot: reservation scan",
    s!"- root: {root}",
    s!"- storage: {settings.storageDir}",
    s!"- island spacing: {settings.spacing.val}, "
      ++ s!"spawn exclusion radius: {settings.exclusion.radius}",
    s!"- reservations: assigned={stats.assigned}, orphaned={stats.orphaned}, "
      ++ s!"pooled={stats.pooled}",
    s!"- cursor: {stats.cursor}"]
    ++ if stats.corrupt = 0 then [] else [s!"- corrupt log entries skipped: {stats.corrupt}"]

/-- Carries out a command. The value is what the program prints about it. -/
def perform (a : Allocator FileJournal) (now : UInt64) :
    Command → Outcome Failure (Allocator FileJournal) (List String)
  | .status => .ok [] a
  | .allocate owner =>
    let done := a.allocate owner now
    ⟨done.result.map fun place => [s!"allocated {place.x} {place.z}"], done.state,
      done.notices⟩
  | .release place =>
    let done := a.release place now
    let report (released : Bool) :=
      if released then s!"released {place.x} {place.z}" else s!"{place} was not assigned"
    ⟨done.result.map fun released => [report released], done.state, done.notices⟩
  | .compact =>
    let done := a.compact now
    ⟨done.result.map fun lines => [s!"compacted reservation log to {lines} lines"],
      done.state, done.notices⟩

/-- Runs the program at `now` milliseconds after the beginning of 1970. -/
def run (disk : Disk) (environment : Environment) (arguments : List String) (now : UInt64) :
    Run :=
  let seconds : Int := (now.toNat / 1000 : Nat)
  match Request.ofArguments arguments with
  | .error error => failed error.message disk
  | .ok request =>
    match Config.load disk environment request.root with
    | .error failure => failed failure.message disk
    | .ok config =>
      match Diary.open disk config.storageDir seconds with
      | (.error fault, disk) => failed fault.message disk
      | (.ok diary, disk) =>
        match Allocator.openFile disk config with
        | (.error failure, disk) => failed failure.message disk
        | (.ok (a, notices), disk) =>
          let a := a.onDisk (diary.record disk seconds notices)
          let output := summary request.root a.settings a.counts
          let done := perform a now request.command
          let disk := diary.record done.state.disk seconds done.notices
          let errors := Channel.console.select (notices ++ done.notices)
          match done.result with
          | .ok lines => { exitCode := 0, output := output ++ lines, errors, disk }
          | .error failure => failed failure.message disk output errors

end AllocatorProgram

/-! ### The audit program -/

namespace AuditProgram

/-- A run that ends with a failure. -/
def failed (message : String) (disk : Disk) : Run where
  exitCode := 1
  errors := [message]
  disk := disk

/-- The lines that show an audit. -/
def report (audit : Audit) : List String :=
  [s!"log lines: {audit.lines}",
    s!"assign/orphan/cursor: {audit.assigns}/{audit.orphans}/{audit.advances}",
    s!"replayed: assigned={audit.assigned}, orphaned={audit.orphaned}",
    s!"corrupt entries: {audit.corrupt} ({audit.unparsable.length} unparsable)"]

/-- The lines of the log at a path. -/
def logLines (disk : Disk) (path : String) : Except JournalFault (List String) :=
  match disk.locate path with
  | .ok place => FileJournal.readFile disk path place
  | .error cause => .error (.readLog path cause)

/-- Runs the program. The exit code tells whether the log is sound. -/
def run (disk : Disk) (environment : Environment) (arguments : List String) : Run :=
  match arguments with
  | [] => failed "usage: log_audit <root>" disk
  | root :: _ =>
    match Config.load disk environment root with
    | .error failure => failed s!"log_audit: {failure}" disk
    | .ok config =>
      let path := Path.join config.storageDir logFileName
      if disk.hasEntry path then
        match logLines disk path with
        | .error fault => failed s!"log_audit: {fault.message}" disk
        | .ok lines =>
          match Audit.ofLines lines with
          | .error failure => failed s!"log_audit: {failure}" disk
          | .ok (audit, notices) =>
            { exitCode := if audit.corrupt = 0 then 0 else 2
              output := report audit
              errors := Channel.console.select notices
                ++ audit.unparsable.map fun failure => s!"log_audit: {failure}"
              disk := disk }
      else
        { exitCode := 0, output := [s!"no reservation log under {config.storageDir}"], disk }

end AuditProgram

/-! ### The spiral program -/

namespace SpiralProgram

/-- A run that ends with a failure. -/
def failed (message : String) (disk : Disk) : Run where
  exitCode := 1
  errors := [message]
  disk := disk

/-- Reads the argument at an index, which may be left out. -/
def readArgument (arguments : List String) (index : Nat) (label : String) (default : Int) :
    Except String Int :=
  match arguments[index]? with
  | none => .ok default
  | some given =>
    match Text.readWide? (Text.trim given.toList) with
    | some n => .ok n
    | none =>
      .error s!"usage: spiral_dump [spacing] [count]: {label} must be an integer, got '{given}'"

/-- Reads the spacing and the number of coordinates. -/
def readArguments (arguments : List String) : Except String (Int × Int) := do
  let spacing ← readArgument arguments 0 "spacing" 1
  let count ← readArgument arguments 1 "count" 49
  return (spacing, count)

/-- Runs the program. -/
def run (disk : Disk) (arguments : List String) : Run :=
  match readArguments arguments with
  | .error message => failed message disk
  | .ok (given, count) =>
    match Spacing.ofInt? given with
    | none => failed s!"spiral_dump: spacing must be a positive i32, got {given}" disk
    | some spacing =>
      { exitCode := 0
        output := (Coord.origin.walk spacing count.toNat).map fun c => s!"{c.x};{c.z}"
        disk := disk }

end SpiralProgram

end IslandPlots
