import IslandPlots.Coord
import IslandPlots.Text.Blank
import IslandPlots.Text.Numeral

/-!
# The command line

What the arguments of the allocator program ask for.
-/

namespace IslandPlots

/-- What the allocator program is to do. -/
inductive Command where
  | status
  | allocate (owner : String)
  | release (place : Coord)
  | compact
deriving DecidableEq

/-- A request to the allocator program. -/
structure Request where
  /-- The root directory. -/
  root : String
  command : Command
deriving DecidableEq

/-- What is wrong with the arguments of the allocator program. -/
inductive UsageError where
  | noRoot
  | noOwner
  | noCoordinate (axis : String)
  | badCoordinate (axis given : String)
  | unknownCommand (given : String)
deriving DecidableEq

/-- The wording of an error. -/
def UsageError.message : UsageError → String
  | .noRoot => "usage: skyplot <root> [status | allocate <owner> | release <x> <z> | compact]"
  | .noOwner => "allocate needs an owner"
  | .noCoordinate axis => s!"release needs a {axis} coordinate"
  | .badCoordinate axis given => s!"release expected integer {axis}, got '{given}'"
  | .unknownCommand given => s!"unknown command '{given}'"

namespace Command

/-- Reads one component of a coordinate. -/
def readAxis (axis : String) (arguments : List String) :
    Except UsageError (Blocks × List String) :=
  match arguments with
  | [] => .error (.noCoordinate axis)
  | given :: rest =>
    match Text.readBlocks? (Text.trim given.toList) with
    | some n => .ok (n, rest)
    | none => .error (.badCoordinate axis given)

/-- The command that a name, which may be written in upper or lower case, and the arguments
after it ask for. -/
def ofArguments (name : String) (arguments : List String) : Except UsageError Command :=
  let name := name.map Char.toLower
  if name = "status" then .ok .status
  else if name = "allocate" then
    match arguments with
    | [] => .error .noOwner
    | owner :: _ => .ok (.allocate owner)
  else if name = "release" then do
    let (x, rest) ← readAxis "x" arguments
    let (z, _) ← readAxis "z" rest
    return .release (.ofBlocks x z)
  else if name = "compact" then .ok .compact
  else .error (.unknownCommand name)

end Command

/-- The request that the arguments of the program make. -/
def Request.ofArguments : List String → Except UsageError Request
  | [] => .error .noRoot
  | [root] => .ok { root, command := .status }
  | root :: name :: arguments =>
    (Command.ofArguments name arguments).map fun command => { root, command }

end IslandPlots
