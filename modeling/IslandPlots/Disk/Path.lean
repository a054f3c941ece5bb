/-!
# Paths

A path is a text: names separated by slashes, absolute when it begins with one.  Texts are
kept as they were given, since messages show them; `Path.ofText` is the reading of a text.
-/

namespace IslandPlots

/-- The names on the way from the root of a disk to an entry. -/
abbrev Location := List String

/-- A path as the names on it.  The names are not empty; `"."` stands for the directory
reached so far and `".."` for the one above it. -/
structure Path where
  absolute : Bool
  names : List String
deriving DecidableEq

namespace Path

/-- The names in a text: its maximal parts without a slash. -/
def namesOf (text : String) : List String :=
  ((text.toList.splitOn '/').filter (· ≠ [])).map String.ofList

/-- The path a text denotes. -/
def ofText (text : String) : Path where
  absolute := text.toList.head? == some '/'
  names := namesOf text

/-- The path `text` continued by the relative path or name `name`.  An absolute `name`
replaces `text`. -/
def join (text name : String) : String :=
  if name.toList.head? = some '/' then name
  else if text.isEmpty || text.toList.getLast? = some '/' then text ++ name
  else text ++ "/" ++ name

/-- A path whose characters are given last first, without what ends it and leads nowhere:
slashes, and names that stand for the directory reached so far.  What a path begins with is
kept. -/
def stripEnd : List Char → List Char
  | '/' :: before => if before = [] then ['/'] else stripEnd before
  | '.' :: before => if before.head? = some '/' then stripEnd before else '.' :: before
  | text => text

/-- The path of the directory in which the file with a given path lies; it is empty when the
path is only a name. -/
def directoryOf (text : String) : String :=
  String.ofList (stripEnd (text.toList.reverse.dropWhile (· ≠ '/'))).reverse

/-- The names of a path without those that stand for the directory reached so far; at the
beginning of a relative path such a name counts. -/
def properNames (path : Path) : List String :=
  match path.absolute, path.names with
  | false, name :: names => name :: names.filter (· ≠ ".")
  | _, names => names.filter (· ≠ ".")

/-- The path to the directory above, unless there is none. -/
def parent? (path : Path) : Option Path :=
  if path.properNames = [] then none
  else some { path with names := path.properNames.dropLast }

/-- A path has at most as many proper names as names. -/
theorem length_properNames_le (path : Path) :
  path.properNames.length ≤ path.names.length
  := by
  obtain ⟨absolute, names⟩ := path
  rcases absolute with _ | _
  · rcases names with _ | ⟨name, names⟩
    · exact Nat.le_refl _
    · exact Nat.succ_le_succ (List.length_filter_le _ _)
  · exact List.length_filter_le _ _

/-- The path to the directory above has fewer names. -/
theorem length_of_parent? {path above : Path} (h : path.parent? = some above) :
  above.names.length < path.names.length
  := by
  unfold parent? at h
  split at h
  · cases h
  · rename_i hne
    cases h
    have := path.length_properNames_le
    have : path.properNames.length ≠ 0 := fun h => hne (List.length_eq_zero_iff.1 h)
    simp only [List.length_dropLast]
    omega

end Path

end IslandPlots
