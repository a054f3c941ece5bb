import IslandPlots.Failure

/-!
# Notices

What the allocator reports besides its results.  A notice goes to one of three channels:
the log of allocations, the log of errors, or the console.
-/

namespace IslandPlots

/-- Where a notice goes. -/
inductive Channel where
  | allocations
  | errors
  | console
deriving DecidableEq

/-- A report of the allocator. -/
inductive Notice where
  /-- A line of the journal at `location` was skipped in replaying it. -/
  | skipped (location : String) (skip : Ledger.Skip)
  /-- `count` lines of the journal at `location` were skipped. -/
  | unreadable (location : String) (count : Nat)
  /-- A short write left bytes in the file at `path`. -/
  | stuck (path : String) (remnant : Remnant)
  /-- An orphan cannot be handed out again. -/
  | excludedOrphan (place : Coord)
  | loaded (held orphans pooled corrupt : Nat) (cursor : Coord)
  | reused (place : Coord) (owner : Option String)
  | reuseFailed (place : Coord) (failure : Failure)
  | assigned (place : Coord) (owner : Option String)
  | assignmentFailed (place : Coord) (failure : Failure)
  | noPlot (owner : Option String) (failure : Failure)
  | released (place : Coord)
  | releaseFailed (place : Coord) (failure : Failure)
  | compacted (lines : Nat)
deriving DecidableEq

namespace Notice

/-- The channel of a notice. -/
def channel : Notice → Channel
  | skipped .. | stuck .. | reuseFailed .. | assignmentFailed .. | noPlot .. | releaseFailed .. =>
    .errors
  | unreadable .. => .console
  | excludedOrphan .. | loaded .. | reused .. | assigned .. | released .. | compacted .. =>
    .allocations

/-- The wording of a notice. -/
def text : Notice → String
  | skipped location (.unreadable line defect) =>
    s!"{location}: skipped {Failure.corrupt line defect}"
  | skipped location (.rejected line rejection) =>
    s!"{location}: skipped line {line}: {rejection.reason}"
  | unreadable location count =>
    s!"skyplot: reservation log {location} had {count} unreadable entries"
  | stuck path remnant => s!"{path}: {remnant.message}"
  | excludedOrphan place => s!"orphan {place} lies inside the spawn exclusion, not reused"
  | loaded held orphans pooled corrupt cursor =>
    s!"loaded reservations: assigned={held}, orphaned={orphans}, pooled={pooled}, "
      ++ s!"corrupt={corrupt}, cursor={cursor}"
  | reused place owner => s!"assigned orphan {place} to {ownerText owner}"
  | reuseFailed place failure => s!"reuse of orphan {place} failed: {failure}"
  | assigned place owner => s!"assigned {place} to {ownerText owner}"
  | assignmentFailed place failure => s!"allocation of {place} failed: {failure}"
  | noPlot owner failure => s!"no plot left for {ownerText owner}: {failure}"
  | released place => s!"released {place}"
  | releaseFailed place failure => s!"release of {place} failed: {failure}"
  | compacted lines => s!"compacted reservation log to {lines} lines"

end Notice

/-- The notices that go to a channel. -/
def Channel.select (channel : Channel) (notices : List Notice) : List String :=
  (notices.filter fun notice => notice.channel = channel).map Notice.text

end IslandPlots
