import IslandPlots.Journal
import IslandPlots.Text.Lines

/-!
# Journals in files

A journal in the file `reservations.log` of a directory, on a disk that other programs
write to as well.

Appends go to the file that was opened, whatever its name has become since then; reading
and the look at the last byte go by name.  If the last byte is not a line feed, someone was
interrupted in writing, and the append begins with a line feed so that its first line does
not continue the fragment.  A write can stop short (`ShortWrite`); the file is then cut
back to its old length, and when that fails as well the journal refuses appends until it is
opened anew or replaced.

A replacement is prepared under another name and then renamed.  It can fail on both sides of
the renaming (`Mishap`): before it the draft is left behind, and after it the log has been
replaced, but the old file stays the open one.
-/

namespace IslandPlots

/-- The name of the log in its directory. -/
def logFileName : String := "reservations.log"

/-- A failure of the device in the next append. -/
structure ShortWrite where
  /-- The number of bytes that are stored nevertheless. -/
  keep : Nat
  /-- Whether the device also refuses to cut the file back. -/
  stuck : Bool
deriving DecidableEq

/-- A failure of the device in the next replacement. -/
inductive Mishap where
  /-- The device has room for no more than `room` bytes of the draft. -/
  | writeDraft (room : Nat) (cause : DiskError)
  /-- The draft cannot be made durable. -/
  | syncDraft (cause : DiskError)
  /-- The draft has been renamed, but its new name cannot be made durable. -/
  | syncDirectory (cause : DiskError)
  /-- The draft has been renamed, but it cannot be opened under its new name. -/
  | openReplaced (cause : DiskError)
deriving DecidableEq

/-- An open journal in a file. -/
structure FileJournal where
  /-- The disk on which the file lies. -/
  disk : Disk
  /-- The path of the file, as messages show it. -/
  path : String
  /-- The location of the directory. -/
  directory : Location
  /-- The number of the file that was opened. -/
  handle : Nat
  /-- The remnant of a failed append, because of which appends are refused. -/
  remnant : Option Remnant := none
  /-- The failure of the device that the next append meets. -/
  fault : Option ShortWrite := none
  /-- The failure of the device that the next replacement meets. -/
  mishap : Option Mishap := none
deriving DecidableEq

namespace FileJournal

/-- The location of the file under its name. -/
def place (journal : FileJournal) : Location :=
  journal.directory ++ [logFileName]

/-- The name of the file in which a replacement is prepared. -/
def draftName : String := logFileName ++ ".tmp"

/-- The location of the file in which a replacement is prepared. -/
def draftPlace (journal : FileJournal) : Location :=
  journal.directory ++ [draftName]

/-- The path of the file in which a replacement is prepared, as messages show it. -/
def draftPath (journal : FileJournal) : String :=
  journal.path ++ ".tmp"

/-- The content of the file that was opened. -/
def content (journal : FileJournal) : Text.Bytes :=
  journal.disk.content journal.handle

/-! ### Opening and reading -/

/-- Opens the journal in a directory.  The directory and the file are made if they are
missing. -/
def «open» (disk : Disk) (directory : String) :
    Except JournalFault FileJournal × Disk :=
  match disk.makeTree directory with
  | (.error cause, disk) => (.error (.makeDirectory directory cause), disk)
  | (.ok (), disk) =>
    let path := Path.join directory logFileName
    let opened : Except DiskError (Location × Nat × Disk) := do
      let _ ← Disk.pathOf path
      let location ← disk.walk (Path.ofText directory)
      return (location, ← disk.openFile (location ++ [logFileName]))
    match opened with
    | .error cause => (.error (.openLog path cause), disk)
    | .ok (directory, handle, disk) => (.ok { disk, path, directory, handle }, disk)

/-- The lines of the file at a location; a missing file has none. -/
def readFile (disk : Disk) (path : String) (place : Location) :
    Except JournalFault (List String) :=
  match disk.read place with
  | .ok bytes => .ok (Text.readLines bytes)
  | .error .notFound => .ok []
  | .error cause => .error (.readLog path cause)

/-- The lines in the journal. -/
def lines (journal : FileJournal) : Except JournalFault (List String) :=
  readFile journal.disk journal.path journal.place

/-! ### Appending -/

/-- Whether the file has an unfinished line at its end.  The length is that of the open
file, but the byte is looked up under the name. -/
def isTorn (journal : FileJournal) : Except JournalFault Bool :=
  match journal.content.length with
  | 0 => .ok false
  | last + 1 =>
    match journal.disk.read journal.place with
    | .error .isADirectory => .error (.readLog journal.path .isADirectory)
    | .error cause => .error (.openLog journal.path cause)
    | .ok bytes =>
      match bytes[last]? with
      | none => .error (.logTooShort journal.path)
      | some byte => .ok (byte ≠ Text.lineFeed)

/-- The bytes that an append of lines writes. -/
def appendBytes (torn : Bool) (lines : List String) : Text.Bytes :=
  (if torn then [Text.lineFeed] else []) ++ Text.writeLines lines

/-- Writes bytes at the end of the open file.  If the device fails, the file is cut back to
the length it had. -/
def writeBytes (journal : FileJournal) (bytes : Text.Bytes) :
    Outcome JournalFault FileJournal Unit :=
  match journal.fault with
  | none => .ok () { journal with disk := journal.disk.write journal.handle bytes }
  | some fault =>
    let kept := min fault.keep bytes.length
    let length := journal.content.length
    let disk := journal.disk.write journal.handle (bytes.take kept)
    let failure := JournalFault.device journal.path kept
    if fault.stuck then
      let remnant : Remnant := ⟨length⟩
      .fail failure { journal with disk := disk, remnant := some remnant, fault := none }
        [.stuck journal.path remnant]
    else
      .fail failure { journal with disk := disk.resize journal.handle length, fault := none }

/-- Adds lines at the end. -/
def append (journal : FileJournal) (lines : List String) :
    Outcome JournalFault FileJournal Unit :=
  match journal.remnant with
  | some remnant => .fail (.unusable journal.path remnant) journal
  | none =>
    match journal.isTorn with
    | .error fault => .fail fault journal
    | .ok torn => journal.writeBytes (appendBytes torn lines)

/-! ### Replacing -/

/-- The disk after a replacement with the content `bytes` has been prepared. -/
def draft (journal : FileJournal) (bytes : Text.Bytes) : Except DiskError Disk :=
  (Disk.pathOf journal.draftPath).bind fun _ => journal.disk.store journal.draftPlace bytes

/-- The bytes of a draft that the device stores. -/
def draftBytes (journal : FileJournal) (bytes : Text.Bytes) : Text.Bytes :=
  match journal.mishap with
  | some (.writeDraft room _) => bytes.take room
  | _ => bytes

/-- How the device fails before a draft is renamed. -/
def earlyFault? (journal : FileJournal) (bytes : Text.Bytes) : Option JournalFault :=
  match journal.mishap with
  | some (.writeDraft room cause) =>
    if room < bytes.length then some (.writeDraft journal.draftPath cause) else none
  | some (.syncDraft cause) => some (.syncDraft journal.draftPath cause)
  | _ => none

/-- How the device fails after a draft has been renamed.  No directory is synced when the path
of the log is only a name. -/
def lateFault? (journal : FileJournal) : Option JournalFault :=
  match journal.mishap with
  | some (.syncDirectory cause) =>
    let directory := Path.directoryOf journal.path
    if directory = "" then none else some (.syncDirectory directory cause)
  | some (.openReplaced cause) => some (.openReplaced journal.path cause)
  | _ => none

/-- Prepares a replacement with the content `bytes`. -/
def prepare (journal : FileJournal) (bytes : Text.Bytes) :
    Outcome JournalFault FileJournal Unit :=
  match journal.draft (journal.draftBytes bytes) with
  | .error cause => .fail (.makeDraft journal.draftPath cause) journal
  | .ok disk =>
    match journal.earlyFault? bytes with
    | some fault => .fail fault { journal with disk := disk, mishap := none }
    | none => .ok () { journal with disk := disk }

/-- Puts what was prepared in the place of the log, and opens it there. -/
def putInPlace (journal : FileJournal) : Outcome JournalFault FileJournal Unit :=
  match journal.disk.rename journal.draftPlace journal.place with
  | .error cause => .fail (.renameDraft journal.path cause) journal
  | .ok disk =>
    match journal.lateFault? with
    | some fault => .fail fault { journal with disk := disk, mishap := none }
    | none =>
      match disk.openFile journal.place with
      | .error cause => .fail (.openLog journal.path cause) { journal with disk := disk }
      | .ok (handle, disk) =>
        .ok () { journal with disk := disk, handle := handle, remnant := none }

/-- Replaces all lines. -/
def replace (journal : FileJournal) (lines : List String) :
    Outcome JournalFault FileJournal Unit :=
  let prepared := journal.prepare (Text.writeLines lines)
  match prepared.result with
  | .error fault => .fail fault prepared.state
  | .ok () => prepared.state.putInPlace

instance : Journal FileJournal where
  location := path
  lines := lines
  append := append
  replace := replace

end FileJournal

end IslandPlots
