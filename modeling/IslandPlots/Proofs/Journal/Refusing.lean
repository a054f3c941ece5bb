import IslandPlots.Proofs.Journal.Outline

/-!
# What a journal in a file refuses

A clean journal in a file refuses an append only if the device fails
(`FileJournal.Sound.isOk_append`).  It refuses a replacement only if the draft of it cannot be made;
when it can be made once, it can be made again (`FileJournal.Replaceable`).
-/

namespace IslandPlots

namespace FileJournal

/-- A clean journal acknowledges an append unless the device fails. -/
theorem Sound.isOk_append
    {directory : String} {journal : FileJournal} (h : journal.Sound directory)
    (hclean : journal.Clean) (lines : List String) :
  (journal.append lines).result.isOk = journal.fault.isNone
  := by
  rw [h.append_eq hclean.1]
  rcases hfault : journal.fault with _ | ⟨keep, _ | _⟩
  · rfl
  · rfl
  · cases hclean.2 _ hfault

/-- Whether a replacement is acknowledged does not depend on its lines, unless the device is to
fail. -/
theorem isOk_replace
    {journal : FileJournal} (hcalm : journal.mishap = none) (lines lines' : List String) :
  (journal.replace lines).result.isOk = (journal.replace lines').result.isOk
  := congrArg Except.isOk (journal.outline_replace hcalm rfl lines lines').1

/-- A draft can be made: its path is not too long, and no directory is in the way. -/
structure Replaceable (journal : FileJournal) : Prop where
  pathOf_draftPath : ∃ path, Disk.pathOf journal.draftPath = .ok path
  free : journal.disk.entry? journal.draftPlace ≠ some .directory

namespace Replaceable

variable {journal : FileJournal} (h : journal.Replaceable)

include h

/-- Bytes that are written to a file, or cut off, are not in the way of a draft. -/
theorem of_entry?_eq
    {disk : Disk} (hentry : disk.entry? = journal.disk.entry?) (remnant : Option Remnant)
    (fault : Option ShortWrite) (mishap : Option Mishap) :
  { journal with disk := disk, remnant := remnant, fault := fault, mishap := mishap }.Replaceable
  := by
  use h.pathOf_draftPath
  change disk.entry? journal.draftPlace ≠ some .directory
  rw [hentry]
  exact h.free

/-- A draft can be made after an append. -/
theorem append (lines : List String) :
  (journal.append lines).state.Replaceable
  := by
  obtain ⟨bytes, remnant, fault, heq⟩ := journal.state_append lines
  rw [heq]
  exact h.of_entry?_eq (Disk.entry?_edit ..) remnant fault _

/-- A replacement is acknowledged if a draft can be made and the device is not to fail, and after it
a draft can be made. -/
theorem replace
    {directory : String} (hlinked : journal.Linked directory) (hcalm : journal.mishap = none)
    (lines : List String) :
  (journal.replace lines).result = .ok () ∧ (journal.replace lines).state.Replaceable
  := by
  obtain ⟨path, hpath⟩ := h.pathOf_draftPath
  obtain ⟨opened, hopen⟩ : ∃ opened, journal.disk.openFile journal.draftPlace = .ok opened := by
    unfold Disk.openFile
    split
    next hdirectory => exact absurd hdirectory h.free
    · exact ⟨_, rfl⟩
    · exact ⟨_, rfl⟩
  have hdraft : journal.draft (Text.writeLines lines)
      = .ok ((opened.2.resize opened.1 0).write opened.1 (Text.writeLines lines)) := by
    rw [draft, hpath]
    change journal.disk.store _ _ = _
    rw [Disk.store, hopen]
    rfl
  rcases hlinked.based.replace_cases hcalm lines with
    ⟨disk, handle, hreplace, hplaced⟩ | ⟨cause, hnone, -⟩
  · rw [hreplace]
    refine ⟨rfl, h.pathOf_draftPath, ?_⟩
    change disk.entry? journal.draftPlace ≠ some .directory
    rw [hplaced.draft]
    exact (Option.some_ne_none _).symm
  · cases hdraft.symm.trans hnone

end Replaceable

end FileJournal

end IslandPlots
