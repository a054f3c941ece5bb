import IslandPlots.Proofs.Journal.Failing
import IslandPlots.Proofs.Text.Lines

/-!
# Replacements

A replacement that is acknowledged leaves just its lines in the journal.  For this the journal
need not be in working order: it is enough that the disk on which it lies is well-formed,
whatever the file holds, and whether the name of the log still leads to it or not.
-/

namespace IslandPlots

/-- A journal in which an acknowledged replacement can be read back. -/
class ReplacedJournal (J : Type) [Journal J] where
  /-- What the journal is kept on is in order. -/
  Sane : J → Prop
  sane_append : ∀ {journal : J} {lines : List String},
    Sane journal → Sane (Journal.append journal lines).state
  sane_replace : ∀ {journal : J} {lines : List String},
    Sane journal → Sane (Journal.replace journal lines).state
  lines_replace : ∀ {journal : J} {lines : List String},
    Sane journal → (∀ line ∈ lines, Text.Unbroken line) →
    (Journal.replace journal lines).result = .ok () →
      Journal.lines (Journal.replace journal lines).state = .ok lines

/-- A journal in memory holds the lines that replaced the others. -/
instance : ReplacedJournal MemoryJournal where
  Sane _ := True
  sane_append _ := trivial
  sane_replace _ := trivial
  lines_replace := by
    rintro ⟨old, _ | _⟩ lines - - hresult
    · rfl
    · cases hresult

namespace FileJournal

/-- An append leaves the disk well-formed. -/
theorem wellFormed_append
    {journal : FileJournal} (h : journal.disk.WellFormed) (lines : List String) :
  (journal.append lines).state.disk.WellFormed
  := by
  obtain ⟨bytes, remnant, fault, heq⟩ := journal.state_append lines
  rw [heq]
  exact h.edit _ _

/-- A replacement is refused, or the content of its lines stands under the name of the log; in
either case the disk stays well-formed. -/
theorem replace_wellFormed
    {journal : FileJournal} (h : journal.disk.WellFormed) (lines : List String) :
  (journal.replace lines).state.disk.WellFormed
    ∧ ((∃ fault, (journal.replace lines).result = .error fault)
      ∨ (journal.replace lines).state.lines = .ok (Text.readLines (Text.writeLines lines)))
  := by
  have hends := journal.replacement_replace lines
  generalize journal.replace lines = replaced at hends ⊢
  cases hends with
  | refused hdraft => exact ⟨h, .inl ⟨_, rfl⟩⟩
  | spoiled hdraft hfault | misplaced hdraft hrename =>
    obtain ⟨number, hstored⟩ := h.store (store_of_draft hdraft)
    exact ⟨hstored.wellFormed, .inl ⟨_, rfl⟩⟩
  | detached hdraft hrename hfault =>
    obtain ⟨number, hplaced⟩ := placed_of_rename h hdraft hrename
    exact ⟨hplaced.wellFormed, .inl ⟨_, rfl⟩⟩
  | @done drafted renamed handle hdraft hrename hopen =>
    obtain ⟨number, hplaced⟩ := placed_of_rename h hdraft hrename
    refine ⟨hplaced.wellFormed, .inr ?_⟩
    change readFile renamed journal.path journal.place = _
    unfold readFile
    rw [hplaced.read]

/-- A journal in a file holds the lines that replaced the others. -/
instance : ReplacedJournal FileJournal where
  Sane journal := journal.disk.WellFormed
  sane_append h := wellFormed_append h _
  sane_replace h := (replace_wellFormed h _).1
  lines_replace := by
    intro journal lines h hlines hresult
    rcases (replace_wellFormed h lines).2 with ⟨fault, herror⟩ | hread
    · cases herror.symm.trans hresult
    · rw [Text.readLines_writeLines hlines] at hread
      exact hread

end FileJournal

end IslandPlots
