import IslandPlots.Allocator
import IslandPlots.Journal.File

/-!
# Opening an allocator on a disk

The allocator of a configuration keeps its journal in the storage directory.
-/

namespace IslandPlots

namespace Allocator

/-- Opens the allocator of a configuration.  The storage directory and the journal are made
if they are missing, which changes the disk also when the opening fails later. -/
def openFile (disk : Disk) (config : Config) :
    Except Failure (Allocator FileJournal × List Notice) × Disk :=
  match config.validate with
  | .error failure => (.error failure, disk)
  | .ok settings =>
    match FileJournal.open disk settings.storageDir with
    | (.error fault, disk) => (.error (.storage settings.storageDir fault), disk)
    | (.ok journal, disk) => (load settings journal, disk)

/-- The disk on which the journal of an allocator lies. -/
def disk (a : Allocator FileJournal) : Disk :=
  a.store.journal.disk

/-- The allocator after something has happened to the disk. -/
def onDisk (a : Allocator FileJournal) (disk : Disk) : Allocator FileJournal :=
  { a with store := { a.store with journal := { a.store.journal with disk := disk } } }

end Allocator

end IslandPlots
