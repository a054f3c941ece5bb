import IslandPlots.Disk.Path
import IslandPlots.Text.Utf8

/-!
# The disk

A disk is a tree of directories and files.  A name in the tree leads to a numbered file,
and the contents belong to the number, not to the name: an open file stays what it is when
its name is removed or given to another file.

Operations that take a text path resolve it first (`Disk.locate`); the others take a
`Location` or the number of an open file.  Texts and names have a limited length, and a text
with a zero character denotes no path (`Disk.pathOf`).
-/

namespace IslandPlots

/-- Why the operating system refuses an operation. -/
inductive DiskError where
  | notFound
  | alreadyExists
  | notADirectory
  | isADirectory
  | nameTooLong
  | zeroCharacter
  /-- The device fails, for a reason that the operating system words. -/
  | device (reason : String)
deriving DecidableEq

/-- The wording of a refusal. -/
def DiskError.message : DiskError → String
  | .notFound => "No such file or directory (os error 2)"
  | .alreadyExists => "File exists (os error 17)"
  | .notADirectory => "Not a directory (os error 20)"
  | .isADirectory => "Is a directory (os error 21)"
  | .nameTooLong => "File name too long (os error 36)"
  | .zeroCharacter => "file name contained an unexpected NUL byte"
  | .device reason => reason

instance : ToString DiskError := ⟨DiskError.message⟩

/-- What a name on the disk stands for. -/
inductive Entry where
  | directory
  | file (number : Nat)
deriving DecidableEq

/-- A disk. -/
structure Disk where
  /-- The entries below the root, each with its location. -/
  tree : List (Location × Entry) := []
  /-- The contents of the files, in the order of their numbers. -/
  contents : List Text.Bytes := []
  /-- The directory from which relative paths start. -/
  here : Location := []
deriving DecidableEq, Inhabited

namespace Disk

/-! ### Names -/

/-- The largest number of bytes in a name. -/
def maxNameBytes : Nat := 255

/-- The largest number of bytes in a text that denotes a path. -/
def maxPathBytes : Nat := 4095

/-- The path a text denotes, unless the text holds a zero character or is too long. -/
def pathOf (text : String) : Except DiskError Path :=
  if text.toList.contains '\x00' then .error .zeroCharacter
  else if maxPathBytes < text.utf8ByteSize then .error .nameTooLong
  else .ok (Path.ofText text)

/-- The entry at a location. -/
def entry? (disk : Disk) : Location → Option Entry
  | [] => some .directory
  | location => disk.tree.lookup location

/-- The location that `name` leads to from `location`, which must be a directory. -/
def step (disk : Disk) (location : Location) (name : String) : Except DiskError Location :=
  match disk.entry? location with
  | none => .error .notFound
  | some (.file _) => .error .notADirectory
  | some .directory =>
    if name = "." then .ok location
    else if name = ".." then .ok location.dropLast
    else if maxNameBytes < name.utf8ByteSize then .error .nameTooLong
    else .ok (location ++ [name])

/-- The location at which a path begins. -/
def start (disk : Disk) (path : Path) : Location :=
  if path.absolute then [] else disk.here

/-- The location a path leads to.  There need not be an entry at it, but all names before
the last must lead to directories. -/
def walk (disk : Disk) (path : Path) : Except DiskError Location :=
  path.names.foldlM disk.step (disk.start path)

/-- The location a text path leads to. -/
def locate (disk : Disk) (text : String) : Except DiskError Location :=
  if text.isEmpty then .error .notFound else (pathOf text).bind disk.walk

/-- Whether a path leads to a directory. -/
def isDirectory (disk : Disk) (path : Path) : Bool :=
  match disk.walk path with
  | .ok location => disk.entry? location = some .directory
  | .error _ => false

/-- Whether a text path leads to an entry. -/
def hasEntry (disk : Disk) (text : String) : Bool :=
  match disk.locate text with
  | .ok location => (disk.entry? location).isSome
  | .error _ => false

/-- The disk with a further entry. -/
def bind (disk : Disk) (location : Location) (entry : Entry) : Disk :=
  { disk with tree := disk.tree ++ [(location, entry)] }

/-- The disk without the entry at a location. -/
def unbind (disk : Disk) (location : Location) : Disk :=
  { disk with tree := disk.tree.filter fun named => named.1 ≠ location }

/-! ### Directories -/

/-- Makes the directory a path leads to. -/
def makeDir (disk : Disk) (path : Path) : Except DiskError Disk :=
  match path.names.getLast? with
  | none => .error (if path.absolute then .alreadyExists else .notFound)
  | some name =>
    match disk.walk { path with names := path.names.dropLast } with
    | .error e => .error e
    | .ok above =>
      match disk.step above name with
      | .error e => .error e
      | .ok location =>
        if name = "." ∨ name = ".." ∨ (disk.entry? location).isSome then
          .error .alreadyExists
        else .ok (disk.bind location .directory)

/-- Makes the directory a path leads to and those above it that are missing.  It is no
error when the directory is there already. -/
def makeDirs (disk : Disk) (path : Path) : Except DiskError Unit × Disk :=
  if path.absolute = false ∧ path.names = [] then (.ok (), disk)
  else
    match disk.makeDir path with
    | .ok disk => (.ok (), disk)
    | .error .notFound =>
      match _h : path.parent? with
      | none => (.error .notFound, disk)
      | some above =>
        match makeDirs disk above with
        | (.error e, disk) => (.error e, disk)
        | (.ok (), disk) =>
          match disk.makeDir path with
          | .ok disk => (.ok (), disk)
          | .error e => (if disk.isDirectory path then .ok () else .error e, disk)
    | .error e => (if disk.isDirectory path then .ok () else .error e, disk)
termination_by path.names.length
decreasing_by exact Path.length_of_parent? _h

/-- Makes the directory a text path leads to and those above it that are missing. -/
def makeTree (disk : Disk) (text : String) : Except DiskError Unit × Disk :=
  match pathOf text with
  | .error e => (.error e, disk)
  | .ok path => disk.makeDirs path

/-! ### Files by number -/

/-- The content of a file. -/
def content (disk : Disk) (number : Nat) : Text.Bytes :=
  disk.contents.getD number []

/-- Writes bytes at the end of a file. -/
def write (disk : Disk) (number : Nat) (bytes : Text.Bytes) : Disk :=
  { disk with contents := disk.contents.set number (disk.content number ++ bytes) }

/-- Cuts a file to `length` bytes; a shorter file is filled up with zero bytes. -/
def resize (disk : Disk) (number length : Nat) : Disk :=
  let old := disk.content number
  { disk with
    contents := disk.contents.set number
      (old.take length ++ List.replicate (length - old.length) 0) }

/-! ### Files by name -/

/-- The content of the file at a location. -/
def read (disk : Disk) (location : Location) : Except DiskError Text.Bytes :=
  match disk.entry? location with
  | none => .error .notFound
  | some .directory => .error .isADirectory
  | some (.file number) => .ok (disk.content number)

/-- The number of the file at a location, after an empty file has been made there if there
was no entry. -/
def openFile (disk : Disk) (location : Location) : Except DiskError (Nat × Disk) :=
  match disk.entry? location with
  | some .directory => .error .isADirectory
  | some (.file number) => .ok (number, disk)
  | none =>
    let number := disk.contents.length
    .ok (number, { disk.bind location (.file number) with contents := disk.contents ++ [[]] })

/-- Makes `bytes` the content of the file at a location. -/
def store (disk : Disk) (location : Location) (bytes : Text.Bytes) :
    Except DiskError Disk :=
  (disk.openFile location).map fun (number, disk) => (disk.resize number 0).write number bytes

/-- Gives the file at `source` the name `target`.  A file that had the name loses it. -/
def rename (disk : Disk) (source target : Location) : Except DiskError Disk :=
  match disk.entry? source, disk.entry? target with
  | none, _ => .error .notFound
  | some _, some .directory => .error .isADirectory
  | some entry, _ => .ok (((disk.unbind source).unbind target).bind target entry)

/-- Removes the name of a file. -/
def unlink (disk : Disk) (location : Location) : Disk :=
  match disk.entry? location with
  | some (.file _) => disk.unbind location
  | _ => disk

end Disk

end IslandPlots
