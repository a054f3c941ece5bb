import IslandPlots.Disk

/-!
# Faults of a journal

Why a journal refuses to read or to write.
-/

namespace IslandPlots

/-- Why a short write left bytes behind: the device refused to cut the file back to
`length` bytes. -/
structure Remnant where
  length : Nat
deriving DecidableEq

/-- The wording of a remnant. -/
def Remnant.message (remnant : Remnant) : String :=
  s!"cutting back to {remnant.length} bytes failed: truncate refused by device"

/-- Why a journal refuses an operation. -/
inductive JournalFault where
  /-- A journal in memory was told to refuse appends. -/
  | appendRefused
  /-- A journal in memory was told to refuse appends, and with them replacements. -/
  | replaceRefused
  | makeDirectory (directory : String) (cause : DiskError)
  | openLog (path : String) (cause : DiskError)
  | readLog (path : String) (cause : DiskError)
  /-- The file under the name of the log is shorter than the open log. -/
  | logTooShort (path : String)
  /-- The device failed after it had stored `kept` bytes. -/
  | device (path : String) (kept : Nat)
  /-- An earlier append left bytes behind. -/
  | unusable (path : String) (remnant : Remnant)
  | makeDraft (path : String) (cause : DiskError)
  | writeDraft (path : String) (cause : DiskError)
  | syncDraft (path : String) (cause : DiskError)
  | renameDraft (path : String) (cause : DiskError)
  /-- The log has been replaced, but its new name may not be durable. -/
  | syncDirectory (directory : String) (cause : DiskError)
  /-- The log has been replaced, but the new file cannot be opened. -/
  | openReplaced (path : String) (cause : DiskError)
deriving DecidableEq

/-- The wording of a fault. -/
def JournalFault.message : JournalFault → String
  | .appendRefused => "memory log append refused"
  | .replaceRefused => "memory log rewrite refused"
  | .makeDirectory directory cause => s!"reservation dir create failed for {directory}: {cause}"
  | .openLog path cause => s!"reservation log open failed for {path}: {cause}"
  | .readLog path cause => s!"reservation log read failed for {path}: {cause}"
  | .logTooShort path => s!"reservation log read failed for {path}: failed to fill whole buffer"
  | .device path kept =>
    s!"reservation log write failed for {path}: device error after {kept} bytes"
  | .unusable path remnant =>
    s!"reservation log {path} is unusable until reopened: {remnant.message}"
  | .makeDraft path cause => s!"reservation snapshot create failed for {path}: {cause}"
  | .writeDraft path cause => s!"reservation snapshot write failed for {path}: {cause}"
  | .syncDraft path cause => s!"reservation snapshot sync failed for {path}: {cause}"
  | .renameDraft path cause => s!"reservation snapshot rename failed for {path}: {cause}"
  | .syncDirectory directory cause =>
    s!"reservation dir sync failed for {directory}: {cause}"
  | .openReplaced path cause => s!"reservation log open failed for {path}: {cause}"

end IslandPlots
