import IslandPlots.Journal.Memory
import IslandPlots.Proofs.Ledger.Skipped
import IslandPlots.Proofs.Store.Writing

/-!
# Logs without their corrupt lines

The lines that are counted as corrupt when a store is loaded can be taken out of the log: the store
that is loaded from the rest is the same, with no corrupt lines (`Store.load_kept`).
-/

namespace IslandPlots

namespace Store

/-- Corrupt lines have no effect.  Each line that is counted as corrupt, because it shows no record
or because its record is impossible after the lines before it, can be deleted from the log.  The
store that is loaded from the lines that are left has no corrupt lines and nothing to report, and
its ledger is the same, with the numbers of the reservations, the cursor, the number of records
taken in and the order of the orphans.  As many lines are deleted as were counted, and with the
records that were taken in they are all the lines. -/
theorem load_kept
    {J K : Type} [Journal J] [Journal K] {journal : J} {cleaned : K} {lines : List String}
    (h : Journal.lines journal = .ok lines)
    (hkept : Journal.lines cleaned = .ok (Ledger.kept lines)) :
  ∃ first notices second, load journal = .ok (first, notices)
    ∧ load cleaned = .ok (second, [])
    ∧ second.corrupt = 0
    ∧ second.ledger = first.ledger
    ∧ (Ledger.kept lines).length + first.corrupt = lines.length
    ∧ first.ledger.revision + first.corrupt = lines.length
    ∧ ∀ i line, lines[i]? = some line →
      (i + 1 ∈ (Ledger.replay lines).skips.map Ledger.Skip.line
        ↔ ∃ skip, Ledger.Skip.Of (Ledger.replay (lines.take i)).ledger (i + 1) line skip)
  := by
  have hload := load_of_lines hkept
  rw [Ledger.replay_kept] at hload
  exact ⟨_, _, _, load_of_lines h, hload, rfl, rfl, Ledger.length_kept lines,
    Ledger.revision_replay lines, fun i line => Ledger.mem_skipped_iff⟩

/-- A line that is no record, an assignment of a plot that is held, the loss of a plot that is not
held and a loss that names an owner are deleted; a plot that is held again after its loss stays. -/
theorem load_kept_repeated :
  let lines := ["1;10;0;ASSIGN;ann", "torn", "2;10;0;ASSIGN;bob", "3;10;0;ORPHAN;",
    "4;10;0;ORPHAN;", "5;10;0;ORPHAN;ann", "6;10;0;ASSIGN;bob", "7;20;0;ASSIGN;eve",
    "8;10;0;ORPHAN;", "9;20;0;CURSOR_ADVANCE;"]
  let rest := ["1;10;0;ASSIGN;ann", "3;10;0;ORPHAN;", "6;10;0;ASSIGN;bob", "7;20;0;ASSIGN;eve",
    "8;10;0;ORPHAN;", "9;20;0;CURSOR_ADVANCE;"]
  let journal : MemoryJournal := { lines }
  let cleaned : MemoryJournal := { lines := rest }
  Ledger.kept lines = rest ∧ ∃ first notices second, load journal = .ok (first, notices)
    ∧ load cleaned = .ok (second, []) ∧ second.corrupt = 0 ∧ second.ledger = first.ledger
    ∧ rest.length + first.corrupt = lines.length ∧ first.corrupt = 4
  := by
  intro lines rest journal cleaned
  have hkept : Ledger.kept lines = rest := by
    decide +kernel
  have hlines : Journal.lines journal = .ok lines := rfl
  have hcleaned : Journal.lines cleaned = .ok (Ledger.kept lines) := by
    rw [hkept]
    rfl
  obtain ⟨first, notices, second, hfirst, hsecond, hcorrupt, hledger, hlength, -⟩ :=
    load_kept hlines hcleaned
  rw [hkept] at hlength
  refine ⟨hkept, first, notices, second, hfirst, hsecond, hcorrupt, hledger, hlength, ?_⟩
  have hten : lines.length = 10 := rfl
  have hsix : rest.length = 6 := rfl
  omega

end Store

end IslandPlots
