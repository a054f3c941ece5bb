import IslandPlots.Calendar
import IslandPlots.Disk
import IslandPlots.Notice
import IslandPlots.Text.Lines

/-!
# The diary

The notices about allocations and about errors are kept in two files of the directory `log`
beside the reservation log.  A new file begins with a header; each notice is a line with
the time before it.
-/

namespace IslandPlots

/-- Why the diary cannot be opened. -/
inductive DiaryFault where
  | makeDirectory (cause : DiskError)
  | openFile (name : String) (cause : DiskError)
deriving DecidableEq

/-- The wording of a fault. -/
def DiaryFault.message : DiaryFault → String
  | .makeDirectory cause => s!"log directory create failed: {cause}"
  | .openFile name cause => s!"open log {name} failed: {cause}"

/-- The open files of the diary, by their numbers on the disk. -/
structure Diary where
  allocations : Nat
  errors : Nat
deriving DecidableEq

namespace Diary

/-- The directory of the diary in a storage directory. -/
def directory (storageDir : String) : String :=
  Path.join storageDir "log"

/-- The name of the file about allocations. -/
def allocationsName : String := "allocator.log"

/-- The name of the file about errors. -/
def errorsName : String := "error.log"

/-- The lines at the beginning of a file. -/
def header (name : String) (seconds : Int) : List String :=
  [String.ofList (List.replicate 79 '-'),
    "skyplot - island plot allocator",
    s!"{name} - started {timeText seconds}"]

/-- Opens a file of the diary of a storage directory, and writes its header if it is
empty. -/
def openFile (disk : Disk) (storageDir name : String) (seconds : Int) :
    Except DiaryFault (Nat × Disk) :=
  match (disk.locate (Path.join (directory storageDir) name)).bind disk.openFile with
  | .error cause => .error (.openFile name cause)
  | .ok (number, disk) =>
    if disk.content number = [] then
      .ok (number, disk.write number (Text.writeLines (header name seconds)))
    else .ok (number, disk)

/-- Opens the diary of a storage directory. -/
def «open» (disk : Disk) (storageDir : String) (seconds : Int) :
    Except DiaryFault Diary × Disk :=
  match disk.makeTree (directory storageDir) with
  | (.error cause, disk) => (.error (.makeDirectory cause), disk)
  | (.ok (), disk) =>
    match openFile disk storageDir allocationsName seconds with
    | .error fault => (.error fault, disk)
    | .ok (allocations, disk) =>
      match openFile disk storageDir errorsName seconds with
      | .error fault => (.error fault, disk)
      | .ok (errors, disk) => (.ok { allocations, errors }, disk)

/-- The lines of the diary for messages. -/
def entries (seconds : Int) (messages : List String) : Text.Bytes :=
  Text.writeLines (messages.map fun message => s!"{timeText seconds} {message}")

/-- Writes the notices that belong into the diary. -/
def record (diary : Diary) (disk : Disk) (seconds : Int) (notices : List Notice) : Disk :=
  let disk := disk.write diary.allocations
    (entries seconds (Channel.allocations.select notices))
  disk.write diary.errors (entries seconds (Channel.errors.select notices))

end Diary

end IslandPlots
