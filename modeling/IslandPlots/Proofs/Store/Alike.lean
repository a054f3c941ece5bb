import IslandPlots.Proofs.Journal.Outline
import IslandPlots.Proofs.Ledger.Outline

/-!
# Stores that differ in names and times

Two stores are alike when their ledgers and their journals have the same outlines
(`Store.Alike`).  Writing records with the same outlines to them has the same result, up to the
number of bytes that a failing device has stored, and leaves them alike
(`Store.Alike.appendAll`), and so does compaction (`Store.Alike.compact`).
-/

namespace IslandPlots

open LawfulJournal (Sound Clean)
open OutlinedJournal (outline)

/-- A failure without the number of bytes that a device has stored. -/
def Failure.uncounted : Failure → Failure
  | .storage location fault => .storage location fault.uncounted
  | failure => failure

namespace Store

variable {J : Type} [Journal J] [LawfulJournal J] [ReopenableJournal J] [HazardousJournal J]
  [OutlinedJournal J]

/-- The ledgers and the journals have the same outlines, and as many lines were skipped. -/
structure Alike (store other : Store J) : Prop where
  ledger : store.ledger.outline = other.ledger.outline
  corrupt : store.corrupt = other.corrupt
  journal : outline store.journal = outline other.journal

namespace Alike

variable {store other : Store J} (h : store.Alike other)

include h

/-- Somebody holds a plot in one store if somebody holds it in the other. -/
theorem isAssigned_eq (place : Coord) :
  store.ledger.isAssigned place = other.ledger.isAssigned place
  := by
  unfold Ledger.isAssigned
  rw [Ledger.standing?_congr h.ledger]

/-- Checking records with the same outlines has the same result. -/
theorem checkAll_eq
    {records records' : List Record}
    (hrecords : records.map Record.outline = records'.map Record.outline) :
  (Ledger.checkAll store.ledger.standing? records).mapError (Prod.map Record.outline id)
    = (Ledger.checkAll other.ledger.standing? records').mapError (Prod.map Record.outline id)
  := by
  rw [← Ledger.checkAll_outline, ← Ledger.checkAll_outline, hrecords,
    Ledger.standing?_congr h.ledger]

/-- Appending records with the same outlines to clean journals has the same result and leaves
the stores alike. -/
theorem appendAll
    {directory : String} (hsound : Sound directory store.journal)
    (hsound' : Sound directory other.journal) (hclean : Clean store.journal)
    (hclean' : Clean other.journal) {records records' : List Record}
    (hrecords : records.map Record.outline = records'.map Record.outline) :
  (store.appendAll records).result.mapError Failure.uncounted
      = (other.appendAll records').result.mapError Failure.uncounted
    ∧ (store.appendAll records).state.Alike (other.appendAll records').state
  := by
  unfold Store.appendAll
  rcases exists_of_mapError_eq_mapError (h.checkAll_eq hrecords) with
    ⟨⟨record, standing⟩, ⟨record', standing'⟩, hcheck, hcheck', hrefused⟩ | ⟨⟨⟨⟩⟩, hcheck, hcheck'⟩
  · obtain ⟨houtline, hstanding⟩ := Prod.mk.inj hrefused
    have hfailure : Failure.refused record.outline.kind record.outline.place (id standing)
        = Failure.refused record'.outline.kind record'.outline.place (id standing') := by
      rw [houtline, hstanding]
    rw [hcheck, hcheck']
    exact ⟨congrArg Except.error hfailure, h⟩
  rw [hcheck, hcheck']
  obtain ⟨hresult, hjournal⟩ := OutlinedJournal.append_congr (records.map Record.line)
    (records'.map Record.line) hsound hsound' hclean hclean' h.journal
  have hlocation := OutlinedJournal.location_congr hjournal
  rcases exists_of_mapError_eq_mapError hresult with
    ⟨fault, fault', hwritten, hwritten', hfault⟩ | ⟨⟨⟨⟩⟩, hwritten, hwritten'⟩
  · simp only [hwritten, hwritten', hlocation]
    refine ⟨?_, h.ledger, h.corrupt, hjournal⟩
    change Except.error (Failure.storage _ fault.uncounted) = _
    rw [hfault]
    rfl
  · simp only [hwritten, hwritten']
    refine ⟨rfl, ?_, h.corrupt, hjournal⟩
    change (store.ledger.applyAll records).outline = (other.ledger.applyAll records').outline
    simp [h.ledger, hrecords]

/-- Compacting alike stores has the same result and leaves them alike. -/
theorem compact
    {directory : String} (hsound : Sound directory store.journal) (now now' : UInt64) :
  (store.compact now).result = (other.compact now').result
    ∧ (store.compact now).state.Alike (other.compact now').state
  := by
  have hrecords : (store.ledger.snapshot now).map Record.outline
      = (other.ledger.snapshot now').map Record.outline := by
    simp [h.ledger]
  have hlength := congrArg List.length hrecords
  rw [List.length_map, List.length_map] at hlength
  have hcursor := Ledger.cursor_congr h.ledger
  obtain ⟨hresult, hjournal⟩ := OutlinedJournal.replace_congr
    ((store.ledger.snapshot now).map Record.line) ((other.ledger.snapshot now').map Record.line)
    hsound h.journal
  have hlocation := OutlinedJournal.location_congr hjournal
  unfold Store.compact
  simp only [hresult, hlocation]
  rcases (Journal.replace other.journal ((other.ledger.snapshot now').map Record.line)).result
    with fault | ⟨⟨⟩⟩
  · exact ⟨rfl, h.ledger, h.corrupt, hjournal⟩
  · refine ⟨congrArg Except.ok hlength, ?_, rfl, hjournal⟩
    change (Ledger.applyAll _ _).outline = (Ledger.applyAll _ _).outline
    simp [hrecords, hcursor]

end Alike

end Store

end IslandPlots
