import IslandPlots.Journal.Memory
import IslandPlots.Store

/-!
# Auditing a log

An audit counts the records of a log by kind and the lines that are no records, and replays
a copy of the log in memory to see what it amounts to.
-/

namespace IslandPlots

/-- What an audit finds in a log. -/
structure Audit where
  lines : Nat := 0
  assigns : Nat := 0
  orphans : Nat := 0
  advances : Nat := 0
  /-- The failures of the lines that are no records. -/
  unparsable : List Failure := []
  /-- The number of lines that a replay skips. -/
  corrupt : Nat := 0
  assigned : Nat := 0
  orphaned : Nat := 0
deriving DecidableEq, Inhabited

namespace Audit

/-- The audit after one more line has been counted. -/
def count (audit : Audit) (line : String) : Audit :=
  let audit := { audit with lines := audit.lines + 1 }
  match Record.parse line with
  | .error defect =>
    { audit with unparsable := audit.unparsable ++ [.corrupt audit.lines defect] }
  | .ok record =>
    match record.kind with
    | .assign => { audit with assigns := audit.assigns + 1 }
    | .orphan => { audit with orphans := audit.orphans + 1 }
    | .advance => { audit with advances := audit.advances + 1 }

/-- The audit of a log, with the notices of the replay. -/
def ofLines (lines : List String) : Except Failure (Audit × List Notice) :=
  (Store.load ({ lines } : MemoryJournal)).map fun (store, notices) =>
    ({ lines.foldl count {} with
        corrupt := store.corrupt
        assigned := store.ledger.assignedCount
        orphaned := store.ledger.orphanedCount }, notices)

end Audit

end IslandPlots
