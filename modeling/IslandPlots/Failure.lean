import IslandPlots.Config.Problem
import IslandPlots.Journal.Fault
import IslandPlots.Ledger

/-!
# Failures

Why the allocator fails.  A failure states its cause; its wording is the detail of the
cause in the frame of its category.
-/

namespace IslandPlots

/-- The largest number of rings that the spawn exclusion may cover. -/
def maxExclusionRings : Nat := 4096

/-- Why there is no plot to hand out. -/
inductive Exhaustion where
  | badSpacing (given : Int)
  | badRadius (given : Int)
  | tooManyRings (radius rings spacing : Int)
  /-- The coordinate after `cursor` on the spiral is not representable. -/
  | edge (cursor : Coord)
deriving DecidableEq

/-- The wording of an exhaustion. -/
def Exhaustion.message : Exhaustion → String
  | .badSpacing given => s!"island spacing must be positive, got {given}"
  | .badRadius given => s!"spawn exclusion radius must not be negative, got {given}"
  | .tooManyRings radius rings spacing =>
    s!"spawn exclusion radius {radius} covers {rings} rings at spacing {spacing} "
      ++ s!"(max {maxExclusionRings})"
  | .edge cursor => s!"spiral cursor {cursor} is at the edge of the coordinate range"

/-- Why the allocator fails. -/
inductive Failure where
  /-- The journal at `location` refuses to read or to write. -/
  | storage (location : String) (fault : JournalFault)
  /-- A line of the journal is not a record. -/
  | corrupt (line : Nat) (defect : Record.Defect)
  | exhausted (cause : Exhaustion)
  /-- A record is impossible for a plot with the given standing. -/
  | refused (kind : Kind) (place : Coord) (standing : Option Standing)
  | config (problem : ConfigProblem)
  /-- A caller died while it held the lock. -/
  | poisoned
deriving DecidableEq

namespace Failure

/-- The category of a failure, with what its frame shows besides the detail. -/
inductive Category where
  | storage (location : String)
  | corrupt (line : Nat)
  | exhausted
  | refused
  | config
  | poisoned
deriving DecidableEq

/-- The wording of a failure of a given category with a given detail. -/
def Category.frame (category : Category) (detail : String) : String :=
  match category with
  | .storage location => s!"reservation storage failed for {location}: {detail}"
  | .corrupt line => s!"corrupt reservation log entry at line {line}: {detail}"
  | .exhausted => s!"allocator configuration leaves no usable plots: {detail}"
  | .refused => s!"invalid transition: {detail}"
  | .config => s!"allocator config error: {detail}"
  | .poisoned => "allocator lock poisoned"

/-- The category of a failure. -/
def category : Failure → Category
  | storage location _ => .storage location
  | corrupt line _ => .corrupt line
  | exhausted _ => .exhausted
  | refused .. => .refused
  | config _ => .config
  | poisoned => .poisoned

/-- How messages show the standing of a plot. -/
def standingText : Option Standing → String
  | none => "None"
  | some standing => s!"Some({standing.word})"

/-- The wording of the cause of a failure. -/
def detail : Failure → String
  | storage _ fault => fault.message
  | corrupt _ defect => defect.reason
  | exhausted cause => cause.message
  | refused kind place standing =>
    s!"refusing {kind} for plot {place} in state {standingText standing}"
  | config problem => problem.message
  | poisoned => ""

/-- The wording of a failure. -/
def message (failure : Failure) : String :=
  failure.category.frame failure.detail

instance : ToString Failure := ⟨message⟩

end Failure

end IslandPlots
