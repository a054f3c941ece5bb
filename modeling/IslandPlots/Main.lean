import IslandPlots.Program
import Std.Time.DateTime.Timestamp

/-!
# The executable

The executable is the program whose name it carries: `log_audit`, `spiral_dump`, or under
any other name the allocator program.

A program is a function of the disk, so the executable takes a picture of the entries that
the program can touch, runs the program on the picture, makes the changes of the picture on
the real disk, and prints last.
-/

namespace IslandPlots.Main

/-! ### Taking a picture -/

/-- The path by which the operating system knows a location. -/
def systemPath (location : Location) : String :=
  "/" ++ "/".intercalate location

/-- The picture with the entry at a location.  What is neither a directory nor a regular file
looks like an empty file. -/
def lookAt (disk : Disk) (location : Location) : IO Disk := do
  if (disk.entry? location).isSome then return disk
  match ← (IO.FS.realPath (systemPath location)).toBaseIO with
  | .error _ => return disk
  | .ok path =>
    if ← path.isDir then return disk.bind location .directory
    else
      let regular := (← path.metadata).type == .file
      let bytes ← if regular then IO.FS.readBinFile path else pure .empty
      let number := disk.contents.length
      return { disk.bind location (.file number) with
        contents := disk.contents ++ [bytes.toList] }

/-- The picture with the entries to which names lead, one after the other, from a
location. -/
def lookFrom (disk : Disk) (location : Location) : List String → IO Disk
  | [] => return disk
  | name :: names =>
    match disk.step location name with
    | .error _ => return disk
    | .ok location => do lookFrom (← lookAt disk location) location names

/-- The picture with the entries on the way along a path. -/
def lookAlong (disk : Disk) (text : String) : IO Disk :=
  match Disk.pathOf text with
  | .error _ => return disk
  | .ok path => lookFrom disk (disk.start path) path.names

/-- A picture of what the programs can touch when they are given a root directory. -/
def picture (environment : Environment) (root : String) : IO Disk := do
  let here := Path.namesOf (← IO.currentDir).toString
  let disk ← lookFrom {} [] here
  let disk ← lookAlong { disk with here } (Path.join root configFileName)
  match Config.load disk environment root with
  | .error _ => return disk
  | .ok config => (filesOf config).foldlM lookAlong disk

/-! ### Making the changes -/

/-- Writes bytes to a file, opened in a given mode. -/
def write (path : String) (mode : IO.FS.Mode) (bytes : Text.Bytes) : IO Unit :=
  IO.FS.withFile path mode fun handle => do
    handle.write bytes.toByteArray
    handle.flush

/-- Gives a file on the real disk new content: what goes on the old content is appended,
other content comes in by way of a file with another name. -/
def change (path : String) (old new : Text.Bytes) : IO Unit := do
  if old.isPrefixOf new then
    unless old = new do write path .append (new.drop old.length)
  else
    let draft := path ++ ".tmp"
    write draft .write new
    IO.FS.rename draft path

/-- Makes the changes from one picture to the next. -/
def carryOut (before after : Disk) : IO Unit := do
  for (location, entry) in after.tree do
    let path := systemPath location
    match entry, before.entry? location with
    | .directory, none => IO.FS.createDir path
    | .directory, some _ => pure ()
    | .file number, some (.file old) =>
      change path (before.content old) (after.content number)
    | .file number, _ => write path .write (after.content number)
  for (location, _) in before.tree do
    if (after.entry? location).isNone then IO.FS.removeFile (systemPath location)

/-! ### Running -/

/-- The values of the variables that the programs read. -/
def environment : IO Environment :=
  variableNames.filterMapM fun name => return (← IO.getEnv name).map (name, ·)

/-- The present time in milliseconds since the beginning of 1970. -/
def now : IO UInt64 :=
  return UInt64.ofNat (← Std.Time.Timestamp.now).toMillisecondsSinceUnixEpoch.val.toNat

/-- Runs the program with a given name. -/
def run (program : String) (arguments : List String) : IO UInt32 := do
  let environment ← environment
  let now ← now
  let before ←
    match arguments with
    | [] => pure {}
    | root :: _ => if program = "spiral_dump" then pure {} else picture environment root
  let done :=
    if program = "log_audit" then AuditProgram.run before environment arguments
    else if program = "spiral_dump" then SpiralProgram.run before arguments
    else AllocatorProgram.run before environment arguments now
  carryOut before done.disk
  IO.print (printed done.output)
  IO.eprint (printed done.errors)
  return UInt32.ofNat done.exitCode

end IslandPlots.Main

/-- Runs the program whose name the executable carries. -/
def main (arguments : List String) : IO UInt32 := do
  IslandPlots.Main.run ((← IO.appPath).fileName.getD "") arguments
