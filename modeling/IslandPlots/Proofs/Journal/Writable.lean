import IslandPlots.Proofs.Journal.Sharing

/-!
# Journals that accept writes

A journal accepts writes when it acknowledges every append, and goes on to do so.  Then two appends
do what one append of all lines does (`WritableJournal.append_append`).  An append of no lines
still finishes the last line of a file, which changes this line if it ends with a carriage return;
otherwise it shows nothing new (`WritableJournal.lines_append_nil`).
-/

namespace IslandPlots

/-- What is known of a journal that accepts writes. -/
class WritableJournal (J : Type) [Journal J] where
  /-- The journal acknowledges appends. -/
  Writable : J → Prop
  /-- The last line is finished, or to finish it does not change it. -/
  Whole : J → Prop
  result_append : ∀ {journal : J}, Writable journal → ∀ lines : List String,
    (Journal.append journal lines).result = .ok ()
  writable_append : ∀ {journal : J}, Writable journal → ∀ lines : List String,
    Writable (Journal.append journal lines).state
  append_append : ∀ {journal : J}, Writable journal → ∀ lines more : List String,
    (Journal.append (Journal.append journal lines).state more).state
      = (Journal.append journal (lines ++ more)).state
  lines_append_nil : ∀ {journal : J}, Writable journal →
    (Journal.lines (Journal.append journal []).state = Journal.lines journal ↔ Whole journal)

/-- A journal in memory accepts writes unless it is told to refuse them. -/
instance : WritableJournal MemoryJournal where
  Writable journal := journal.refusing = false
  Whole _ := True
  result_append := by
    rintro ⟨old, -⟩ rfl lines
    rfl
  writable_append := by
    rintro ⟨old, -⟩ rfl lines
    rfl
  append_append := by
    rintro ⟨old, -⟩ rfl lines more
    change ({ lines := old ++ lines ++ more } : MemoryJournal) = { lines := old ++ (lines ++ more) }
    rw [List.append_assoc]
  lines_append_nil := by
    rintro ⟨old, -⟩ rfl
    exact iff_of_true (congrArg Except.ok (List.append_nil old)) trivial

namespace FileJournal

/-- The name of the log leads to the file that was opened, nothing is left of a failed append, and
the device is not going to fail. -/
structure Writable (journal : FileJournal) : Prop where
  linked : ∃ directory, journal.Linked directory
  remnant : journal.remnant = none
  fault : journal.fault = none

namespace Writable

variable {journal : FileJournal} (h : journal.Writable)

include h

/-- An append adds the bytes of its lines to the file. -/
theorem append_eq (lines : List String) :
  journal.append lines = .ok ()
    { journal with
      disk := journal.disk.edit journal.handle (journal.content ++ journal.newBytes lines) }
  := by
  obtain ⟨directory, hlinked⟩ := h.linked
  rw [hlinked.append_eq h.remnant, writeBytes, h.fault]
  rfl

/-- What the file holds after an append. -/
theorem content_append (lines : List String) :
  (journal.append lines).state.content = journal.content ++ journal.newBytes lines
  := by
  obtain ⟨directory, hlinked⟩ := h.linked
  rw [h.append_eq]
  exact Disk.content_edit hlinked.handle_lt _

/-- A journal that accepts writes does so after an append. -/
theorem append (lines : List String) :
  (journal.append lines).state.Writable
  := by
  obtain ⟨directory, hlinked⟩ := h.linked
  refine ⟨⟨directory, hlinked.append lines⟩, ?_, ?_⟩
  · rw [h.append_eq]
    exact h.remnant
  · rw [h.append_eq]
    exact h.fault

/-- Two appends do what one append of all lines does, since the first one leaves no line
unfinished. -/
theorem append_append (lines more : List String) :
  ((journal.append lines).state.append more).state = (journal.append (lines ++ more)).state
  := by
  have hfinished : Text.ending (journal.append lines).state.content = [] := by
    apply Text.ending_of_not_isUnfinished
    rw [h.content_append, newBytes, ← List.append_assoc]
    exact Text.isUnfinished_append_writeLines (Text.isUnfinished_append_ending _) lines
  have hbytes : (journal.append lines).state.content
        ++ (journal.append lines).state.newBytes more
      = journal.content ++ journal.newBytes (lines ++ more) := by
    rw [newBytes, hfinished, h.content_append, newBytes, newBytes, Text.writeLines,
      Text.writeLines, Text.writeLines, List.flatMap_append]
    simp only [List.nil_append, List.append_assoc]
  rw [(h.append lines).append_eq, hbytes, h.append_eq, h.append_eq]
  change ({ journal with
    disk := (journal.disk.edit _ _).edit journal.handle _ } : FileJournal) = _
  rw [Disk.edit_edit]
  rfl

/-- An append of no lines leaves the lines exactly if the file does not end with a carriage
return. -/
theorem lines_append_nil :
  (journal.append []).state.lines = journal.lines ↔ Text.Terminable journal.content
  := by
  obtain ⟨directory, hlinked⟩ := h.linked
  rw [(hlinked.append []).lines_eq, hlinked.lines_eq, h.content_append, newBytes,
    ← List.append_assoc, ← Text.readLines_append_ending_iff journal.content (Text.writeLines []),
    Except.ok.injEq]
  change _ ↔ _ = Text.readLines journal.content ++ []
  rw [List.append_nil]

end Writable

end FileJournal

/-- A journal in a file accepts writes also when its last line is unfinished.  To finish this line
does not change it unless it ends with a carriage return. -/
instance : WritableJournal FileJournal where
  Writable := FileJournal.Writable
  Whole journal := Text.Terminable journal.content
  result_append h lines := by
    change (FileJournal.append _ lines).result = _
    rw [h.append_eq]
    rfl
  writable_append h lines := h.append lines
  append_append h lines more := h.append_append lines more
  lines_append_nil h := h.lines_append_nil

end IslandPlots
