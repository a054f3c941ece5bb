import IslandPlots.Journal.Memory
import IslandPlots.Proofs.Ledger.Interleaving
import IslandPlots.Proofs.Store.Writing

/-!
# Logs that tell the same stories

Two logs tell the same stories when the records about each plot follow one another in the same way,
and so do the moves of the cursor, however all these and the unreadable lines are mixed
(`Ledger.SameStories`).  A store that is loaded from either knows the same of every plot, and only
the orphans can come in another order (`Store.load_interleaved`).
-/

namespace IslandPlots

namespace Ledger

/-- Two logs tell the same stories: as many lines are unreadable, and the records that the others
show are interleavings of the same records about each plot and of the same moves. -/
structure SameStories (xs ys : List String) : Prop where
  unreadable : unreadable xs = unreadable ys
  interleaved : Interleaved (readable xs) (readable ys)

/-- Whether two logs tell the same stories can be decided. -/
instance {xs ys : List String} : Decidable (SameStories xs ys) :=
  decidable_of_iff (Ledger.unreadable xs = Ledger.unreadable ys
      ∧ Interleaved (readable xs) (readable ys))
    ⟨fun h => ⟨h.1, h.2⟩, fun h => ⟨h.unreadable, h.interleaved⟩⟩

namespace SameStories

variable {xs ys : List String} (h : SameStories xs ys)

include h

/-- As many records are taken in of logs that tell the same stories. -/
theorem revision_replay :
  (replay xs).ledger.revision = (replay ys).ledger.revision
  := by
  rw [ledger_replay, ledger_replay]
  exact h.interleaved.revision_applyAll {}

/-- As many lines are skipped of logs that tell the same stories. -/
theorem length_skips :
  (replay xs).skips.length = (replay ys).skips.length
  := by
  have hxs := Ledger.revision_replay xs
  have hys := Ledger.revision_replay ys
  have hread := h.interleaved.perm.length_eq
  rw [← length_readable, h.unreadable, hread, h.revision_replay] at hxs
  rw [← length_readable] at hys
  omega

end SameStories

/-- The orphans of a log stand in the order in which they were last given up. -/
theorem orphans_replay (lines : List String) :
  (replay lines).ledger.orphans
    = (({} : Ledger).givenUp (readable lines)).dedup.filter (replay lines).ledger.isOrphaned
  := by
  rw [ledger_replay]
  exact orphans_applyAll_eq (distinct_of_nil rfl) rfl (readable lines)

end Ledger

namespace Store

/-- A replay treats plots independently.  When two logs have as many unreadable lines, the same
moves of the cursor in the same order and, for every plot, the same records about it in the same
order, then the stores that are loaded from them have the same tenure for every plot, the same
cursor, and the same numbers of skipped lines and of records taken in; it makes no difference how
the lines are mixed, nor whether records are rejected.  Only the order of the orphans can differ:
they stand in the order of their last records of a loss that were taken in. -/
theorem load_interleaved
    {J K : Type} [Journal J] [Journal K] {journal : J} {other : K} {xs ys : List String}
    (hxs : Journal.lines journal = .ok xs) (hys : Journal.lines other = .ok ys)
    (h : Ledger.SameStories xs ys) :
  ∃ first notices second notices', load journal = .ok (first, notices)
    ∧ load other = .ok (second, notices')
    ∧ (∀ place, first.ledger.tenure? place = second.ledger.tenure? place)
    ∧ first.ledger.cursor = second.ledger.cursor
    ∧ first.corrupt = second.corrupt
    ∧ first.ledger.revision = second.ledger.revision
    ∧ first.ledger.orphans.Perm second.ledger.orphans
    ∧ first.ledger.orphans
      = (({} : Ledger).givenUp (Ledger.readable xs)).dedup.filter first.ledger.isOrphaned
    ∧ second.ledger.orphans
      = (({} : Ledger).givenUp (Ledger.readable ys)).dedup.filter second.ledger.isOrphaned
  := by
  refine ⟨_, _, _, _, load_of_lines hxs, load_of_lines hys, fun place => ?_, ?_, h.length_skips,
    h.revision_replay, ?_, Ledger.orphans_replay xs, Ledger.orphans_replay ys⟩
  · rw [Ledger.ledger_replay, Ledger.ledger_replay]
    exact h.interleaved.tenure?_applyAll {} place
  · rw [Ledger.ledger_replay, Ledger.ledger_replay]
    exact h.interleaved.cursor_applyAll {}
  · rw [Ledger.ledger_replay, Ledger.ledger_replay]
    exact h.interleaved.orphans_applyAll (Ledger.distinct_of_nil rfl)

/-- Two plots are given up in one order in the first log and in the other order in the second; a
line of each log is no record and another is rejected. -/
theorem load_interleaved_reordered :
  let xs := ["1;10;0;ASSIGN;ann", "2;20;0;ASSIGN;bob", "3;10;0;ORPHAN;", "4;20;0;ORPHAN;",
    "5;20;0;ORPHAN;", "torn", "6;20;0;CURSOR_ADVANCE;"]
  let ys := ["2;20;0;ASSIGN;bob", "", "4;20;0;ORPHAN;", "6;20;0;CURSOR_ADVANCE;",
    "1;10;0;ASSIGN;ann", "5;20;0;ORPHAN;", "3;10;0;ORPHAN;"]
  let journal : MemoryJournal := { lines := xs }
  let other : MemoryJournal := { lines := ys }
  let near : Coord := ⟨10, 0, by decide, by decide⟩
  let far : Coord := ⟨20, 0, by decide, by decide⟩
  Ledger.SameStories xs ys ∧ ∃ first notices second notices', load journal = .ok (first, notices)
    ∧ load other = .ok (second, notices')
    ∧ (∀ place, first.ledger.tenure? place = second.ledger.tenure? place)
    ∧ first.corrupt = second.corrupt
    ∧ first.ledger.orphans = [near, far] ∧ second.ledger.orphans = [far, near]
  := by
  intro xs ys journal other near far
  have hsame : Ledger.SameStories xs ys := by
    decide +kernel
  have hxs : Journal.lines journal = .ok xs := rfl
  have hys : Journal.lines other = .ok ys := rfl
  obtain ⟨first, notices, second, notices', hfirst, hsecond, htenure, -, hcorrupt, -⟩ :=
    load_interleaved hxs hys hsame
  refine ⟨hsame, first, notices, second, notices', hfirst, hsecond, htenure, hcorrupt, ?_⟩
  cases (load_of_lines hxs).symm.trans hfirst
  cases (load_of_lines hys).symm.trans hsecond
  decide +kernel

end Store

end IslandPlots
