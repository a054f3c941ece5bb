import IslandPlots.Coord
import IslandPlots.Record.Owner
import IslandPlots.Text.Blank
import IslandPlots.Text.Numeral

/-!
# Records

A record is one line of the reservation log: a time stamp, a coordinate, the kind of the
change and, for an assignment, the owner, joined by semicolons.

```
1700000000123;-128;256;ASSIGN;alice
1700000000456;-128;256;ORPHAN;
```

`Record.line` writes a record and `Record.parse` reads one; the reader allows blanks around
the first four fields and a plus sign before the numbers.
-/

namespace IslandPlots

/-- A change of the reservations: a plot is assigned, a plot is given up by its owner, or
the spiral cursor moves. -/
inductive Kind where
  | assign
  | orphan
  | advance
deriving DecidableEq

/-- The word for a kind of change. -/
def Kind.word : Kind → String
  | .assign => "ASSIGN"
  | .orphan => "ORPHAN"
  | .advance => "CURSOR_ADVANCE"

instance : ToString Kind := ⟨Kind.word⟩

/-- The kind of change a word denotes. -/
def Kind.ofWord? (word : List Char) : Option Kind :=
  [Kind.assign, .orphan, .advance].find? fun kind => kind.word.toList == word

/-- One change of the reservations. -/
structure Record where
  /-- The time of the change, in milliseconds since the beginning of 1970. -/
  stamp : UInt64
  /-- The plot that changes hands, or the new position of the cursor. -/
  place : Coord
  kind : Kind
  /-- The new owner; only an assignment shows one. -/
  owner : Option String
deriving DecidableEq

namespace Record

/-- The assignment of a plot. An empty name means that there is no owner. -/
def assign (place : Coord) (owner : Option String) (stamp : UInt64) : Record where
  stamp := stamp
  place := place
  kind := .assign
  owner := owner.filter (· ≠ "")

/-- The loss of a plot's owner. -/
def orphan (place : Coord) (stamp : UInt64) : Record where
  stamp := stamp
  place := place
  kind := .orphan
  owner := none

/-- A move of the spiral cursor. -/
def advance (place : Coord) (stamp : UInt64) : Record where
  stamp := stamp
  place := place
  kind := .advance
  owner := none

/-! ### Writing -/

/-- The last field of a record. -/
def ownerField (r : Record) : List Char :=
  match r.kind, r.owner with
  | .assign, some name => Owner.escape name.toList
  | _, _ => []

/-- The fields of a record. -/
def fields (r : Record) : List (List Char) :=
  [Text.numeral r.stamp.toNat, Text.signedNumeral r.place.x, Text.signedNumeral r.place.z,
    r.kind.word.toList, r.ownerField]

/-- The line that shows a record. -/
def line (r : Record) : String :=
  String.ofList ([fieldSeparator].intercalate r.fields)

/-! ### Reading -/

/-- An axis of the world. -/
inductive Axis where
  | x
  | z
deriving DecidableEq

/-- The letter of an axis. -/
def Axis.letter : Axis → String
  | .x => "x"
  | .z => "z"

instance : ToString Axis := ⟨Axis.letter⟩

/-- What keeps a line from being a record. -/
inductive Defect where
  | badStamp
  | missingAxis (axis : Axis)
  | badAxis (axis : Axis) (field : String)
  | missingKind
  | unknownKind (field : String)
  | missingOwner
  | strayOwner (kind : Kind)
  | badOwner (defect : Owner.Defect)
deriving DecidableEq

/-- The wording of a defect. -/
def Defect.reason : Defect → String
  | .badStamp => "missing or invalid timestamp"
  | .missingAxis axis => s!"missing {axis} coordinate"
  | .badAxis axis field => s!"{axis} coordinate is not an integer: '{field}'"
  | .missingKind => "missing transition kind"
  | .unknownKind field => s!"unknown transition kind '{field}'"
  | .missingOwner => "missing owner field"
  | .strayOwner kind => s!"{kind} entry carries an owner"
  | .badOwner defect => defect.reason

/-- The text before the first separator, and the text after it if there is a separator. -/
def cut : List Char → List Char × Option (List Char)
  | [] => ([], none)
  | c :: text =>
    if c = fieldSeparator then ([], some text)
    else
      let (field, rest) := cut text
      (c :: field, rest)

/-- Reads one component of the coordinate, and returns the text after it. -/
def parseAxis (axis : Axis) (text : Option (List Char)) :
    Except Defect (Blocks × Option (List Char)) :=
  match text.map cut with
  | none => .error (.missingAxis axis)
  | some (field, rest) =>
    match Text.readBlocks? (Text.trim field) with
    | some n => .ok (n, rest)
    | none => .error (.badAxis axis (String.ofList field))

/-- Reads the kind of the change, and returns the text after it. -/
def parseKind (text : Option (List Char)) : Except Defect (Kind × Option (List Char)) :=
  match text.map cut with
  | none => .error .missingKind
  | some (field, rest) =>
    match Kind.ofWord? (Text.trim field) with
    | some kind => .ok (kind, rest)
    | none => .error (.unknownKind (String.ofList field))

/-- Reads the owner, which takes the rest of the line. -/
def parseOwner (kind : Kind) (text : Option (List Char)) :
    Except Defect (Option String) :=
  match text with
  | none => .error .missingOwner
  | some [] => .ok none
  | some field =>
    if kind = .assign then
      match Owner.unescape field with
      | .ok name => .ok (some (String.ofList name))
      | .error defect => .error (.badOwner defect)
    else .error (.strayOwner kind)

/-- Reads the text of a line. -/
def parseChars (text : List Char) : Except Defect Record :=
  let (field, rest) := cut text
  match Text.readStamp? (Text.trim field) with
  | none => .error .badStamp
  | some stamp => do
    let (x, rest) ← parseAxis .x rest
    let (z, rest) ← parseAxis .z rest
    let (kind, rest) ← parseKind rest
    let owner ← parseOwner kind rest
    return { stamp, place := .ofBlocks x z, kind, owner }

/-- The record a line shows. -/
def parse (line : String) : Except Defect Record :=
  parseChars line.toList

end Record

end IslandPlots
