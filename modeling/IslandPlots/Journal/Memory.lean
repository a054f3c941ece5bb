import IslandPlots.Journal

/-!
# Journals in memory

A journal that is a list of lines.  It can be told to refuse everything that writes.
-/

namespace IslandPlots

/-- A journal in memory. -/
structure MemoryJournal where
  lines : List String := []
  /-- Whether appends and replacements are refused. -/
  refusing : Bool := false
deriving DecidableEq, Inhabited

namespace MemoryJournal

/-- Adds lines at the end. -/
def append (journal : MemoryJournal) (lines : List String) :
    Outcome JournalFault MemoryJournal Unit :=
  if journal.refusing then .fail .appendRefused journal
  else .ok () { journal with lines := journal.lines ++ lines }

/-- Replaces all lines. -/
def replace (journal : MemoryJournal) (lines : List String) :
    Outcome JournalFault MemoryJournal Unit :=
  if journal.refusing then .fail .replaceRefused journal
  else .ok () { journal with lines := lines }

instance : Journal MemoryJournal where
  location _ := "<memory>"
  lines journal := .ok journal.lines
  append := append
  replace := replace

end MemoryJournal

end IslandPlots
