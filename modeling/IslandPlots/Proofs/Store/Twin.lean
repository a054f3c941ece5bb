import IslandPlots.Proofs.Store.Consistent

/-!
# Stores on different kinds of journals

Two stores are twins when they have the same ledger, have skipped the same number of lines and
hold the same lines, whatever their journals are (`Store.Twin`).  As long as one journal
acknowledges what the other does, and neither leaves bytes of a failed append behind, writing has
the same result for both, up to the place and the cause of a fault, and leaves them twins
(`Store.Twin.appendAll`, `Store.Twin.compact`).
-/

namespace IslandPlots

open LawfulJournal (Sound Clean held)

/-- A failure without the place of the journal and the cause of its fault. -/
def Failure.unplaced : Failure → Failure
  | .storage _ _ => .storage "" .appendRefused
  | failure => failure

namespace Store

variable {J J' : Type} [Journal J] [LawfulJournal J] [Journal J'] [LawfulJournal J']

/-- The stores know the same, and their journals hold the same lines. -/
structure Twin (store : Store J) (other : Store J') : Prop where
  ledger : store.ledger = other.ledger
  corrupt : store.corrupt = other.corrupt
  lines : held store.journal = held other.journal

namespace Twin

variable {store : Store J} {other : Store J'} (h : store.Twin other) {directory : String}
  (hsound : Sound directory store.journal) (hsound' : Sound directory other.journal)

include h hsound hsound'

/-- Appending records has the same result if both journals acknowledge them or neither does. -/
theorem appendAll
    (hclean : Clean store.journal) (hclean' : Clean other.journal) (records : List Record)
    (hagree : ∀ lines, (Journal.append store.journal lines).result.isOk
      = (Journal.append other.journal lines).result.isOk) :
  (store.appendAll records).result.mapError Failure.unplaced
      = (other.appendAll records).result.mapError Failure.unplaced
    ∧ (store.appendAll records).state.Twin (other.appendAll records).state
  := by
  have hlines := unbroken_map_line records
  have hafter : held (Journal.append store.journal (records.map Record.line)).state
      = held (Journal.append other.journal (records.map Record.line)).state := by
    rw [LawfulJournal.held_append hsound hlines hclean,
      LawfulJournal.held_append hsound' hlines hclean', hagree, h.lines]
  have hsame := hagree (records.map Record.line)
  unfold Store.appendAll
  rw [h.ledger]
  rcases Ledger.checkAll other.ledger.standing? records with ⟨record, standing⟩ | ⟨⟨⟩⟩
  · exact ⟨rfl, h⟩
  dsimp only
  rcases hwritten : (Journal.append store.journal (records.map Record.line)).result
      with fault | ⟨⟨⟩⟩ <;>
    rcases hwritten' : (Journal.append other.journal (records.map Record.line)).result
      with fault' | ⟨⟨⟩⟩ <;>
    rw [hwritten, hwritten'] at hsame
  · exact ⟨rfl, rfl, h.corrupt, hafter⟩
  · cases hsame
  · cases hsame
  · exact ⟨rfl, rfl, h.corrupt, hafter⟩

/-- Compactions have the same result if both journals are replaced or neither is. -/
theorem compact
    (now : UInt64) (hagree : ∀ lines, (Journal.replace store.journal lines).result.isOk
      = (Journal.replace other.journal lines).result.isOk) :
  (store.compact now).result.mapError Failure.unplaced
      = (other.compact now).result.mapError Failure.unplaced
    ∧ (store.compact now).state.Twin (other.compact now).state
  := by
  let lines := (other.ledger.snapshot now).map Record.line
  have hlines := unbroken_map_line (other.ledger.snapshot now)
  have hafter : held (Journal.replace store.journal lines).state
      = held (Journal.replace other.journal lines).state := by
    rw [LawfulJournal.held_replace hsound hlines, LawfulJournal.held_replace hsound' hlines, hagree,
      h.lines]
  have hsame := hagree lines
  unfold Store.compact
  rw [h.ledger]
  dsimp only
  rcases hwritten : (Journal.replace store.journal lines).result with fault | ⟨⟨⟩⟩ <;>
    rcases hwritten' : (Journal.replace other.journal lines).result with fault' | ⟨⟨⟩⟩ <;>
    rw [hwritten, hwritten'] at hsame
  · exact ⟨rfl, rfl, h.corrupt, hafter⟩
  · cases hsame
  · cases hsame
  · exact ⟨rfl, rfl, rfl, hafter⟩

end Twin

end Store

end IslandPlots
