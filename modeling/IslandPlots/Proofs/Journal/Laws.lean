import IslandPlots.Journal.Memory
import IslandPlots.Proofs.Text.Lines

/-!
# The laws of journals

What is assumed of a journal when it is written to.  An append is acknowledged and its
lines are in the journal, or it is refused and the journal holds what it held, or it is torn:
some bytes of the lines are left in the journal, which then is stuck and refuses appends
until it is replaced or opened anew.  A replacement is acknowledged or refused.  The laws
hold in the working order that `LawfulJournal.Sound` describes, which writing keeps.
-/

namespace IslandPlots

/-- The laws of a journal. -/
class LawfulJournal (J : Type) [Journal J] where
  /-- The journal in a directory is in working order. -/
  Sound : String → J → Prop
  /-- A torn append has left bytes in the journal. -/
  Stuck : J → Prop
  /-- No append was torn, and the next one will not be. -/
  Clean : J → Prop
  /-- The lines that the journal holds. -/
  held : J → List String
  lines_eq : ∀ {directory : String} {journal : J}, Sound directory journal →
    Journal.lines journal = .ok (held journal)
  sound_append : ∀ {directory : String} {journal : J} {lines : List String},
    Sound directory journal → (∀ line ∈ lines, Text.Unbroken line) →
      Sound directory (Journal.append journal lines).state
  append_cases : ∀ {directory : String} {journal : J} {lines : List String},
    Sound directory journal → (∀ line ∈ lines, Text.Unbroken line) →
    ∀ {written : Outcome JournalFault J Unit}, Journal.append journal lines = written →
      (written.result = .ok () ∧ ¬ Stuck journal ∧ ¬ Stuck written.state
          ∧ held written.state = held journal ++ lines)
        ∨ (∃ fault, written.result = .error fault ∧ (Stuck written.state ↔ Stuck journal)
          ∧ held written.state = held journal)
        ∨ (∃ fault k, written.result = .error fault ∧ ¬ Stuck journal ∧ Stuck written.state
          ∧ held written.state = held journal ++ Text.torn lines k)
  sound_replace : ∀ {directory : String} {journal : J} {lines : List String},
    Sound directory journal → (∀ line ∈ lines, Text.Unbroken line) →
      Sound directory (Journal.replace journal lines).state
  replace_cases : ∀ {directory : String} {journal : J} {lines : List String},
    Sound directory journal → (∀ line ∈ lines, Text.Unbroken line) →
    ∀ {written : Outcome JournalFault J Unit}, Journal.replace journal lines = written →
      (written.result = .ok () ∧ ¬ Stuck written.state ∧ held written.state = lines)
        ∨ (∃ fault, written.result = .error fault ∧ (Stuck written.state ↔ Stuck journal)
          ∧ held written.state = held journal)
  not_stuck_of_clean : ∀ {journal : J}, Clean journal → ¬ Stuck journal
  clean_append : ∀ {directory : String} {journal : J} {lines : List String},
    Sound directory journal → Clean journal → Clean (Journal.append journal lines).state
  clean_replace : ∀ {directory : String} {journal : J} {lines : List String},
    Sound directory journal → (∀ line ∈ lines, Text.Unbroken line) → Clean journal →
      Clean (Journal.replace journal lines).state

namespace LawfulJournal

variable {J : Type} [Journal J] [LawfulJournal J] {directory : String} {journal : J}
  (hsound : Sound directory journal) {lines : List String}
  (hlines : ∀ line ∈ lines, Text.Unbroken line)

include hsound hlines

/-- What a clean journal holds after an append: the lines are added if it is acknowledged. -/
theorem held_append (hclean : Clean journal) :
  held (Journal.append journal lines).state
    = if (Journal.append journal lines).result.isOk then held journal ++ lines else held journal
  := by
  rcases append_cases hsound hlines rfl with
    ⟨hresult, -, -, hheld⟩ | ⟨fault, hresult, -, hheld⟩ | ⟨fault, k, -, -, hstuck, -⟩
  · rw [hheld, hresult]
    rfl
  · rw [hheld, hresult]
    rfl
  · exact absurd hstuck (not_stuck_of_clean (clean_append hsound hclean))

/-- What a journal holds after a replacement: the lines if it is acknowledged. -/
theorem held_replace :
  held (Journal.replace journal lines).state
    = if (Journal.replace journal lines).result.isOk then lines else held journal
  := by
  rcases replace_cases hsound hlines rfl with ⟨hresult, -, hheld⟩ | ⟨fault, hresult, -, hheld⟩
  · rw [hheld, hresult]
    rfl
  · rw [hheld, hresult]
    rfl

end LawfulJournal

/-- What can befall a journal between two operations without a line being written or lost:
from then on operations may be refused. -/
class HazardousJournal (J : Type) [Journal J] [LawfulJournal J] where
  /-- What can befall the journal. -/
  Hazard : Type
  /-- The journal after something has befallen it. -/
  befall : J → Hazard → J
  /-- A failing append will leave nothing behind. -/
  Mild : Hazard → Prop
  sound_befall : ∀ {directory : String} {journal : J} (hazard : Hazard),
    LawfulJournal.Sound directory journal → LawfulJournal.Sound directory (befall journal hazard)
  stuck_befall : ∀ {journal : J} (hazard : Hazard),
    LawfulJournal.Stuck (befall journal hazard) ↔ LawfulJournal.Stuck journal
  held_befall : ∀ {journal : J} (hazard : Hazard),
    LawfulJournal.held (befall journal hazard) = LawfulJournal.held journal
  clean_befall : ∀ {journal : J} {hazard : Hazard},
    LawfulJournal.Clean journal → Mild hazard → LawfulJournal.Clean (befall journal hazard)

/-! ### Journals in memory -/

/-- A journal in memory is always in working order and never stuck. -/
instance : LawfulJournal MemoryJournal where
  Sound _ _ := True
  Stuck _ := False
  Clean _ := True
  held := MemoryJournal.lines
  lines_eq _ := rfl
  sound_append _ _ := trivial
  append_cases := by
    rintro - ⟨old, _ | _⟩ lines - - _ rfl
    · left
      exact ⟨rfl, id, id, rfl⟩
    · right
      left
      exact ⟨.appendRefused, rfl, .rfl, rfl⟩
  sound_replace _ _ := trivial
  replace_cases := by
    rintro - ⟨old, _ | _⟩ lines - - _ rfl
    · left
      exact ⟨rfl, id, rfl⟩
    · right
      exact ⟨.replaceRefused, rfl, .rfl, rfl⟩
  not_stuck_of_clean _ := id
  clean_append _ _ := trivial
  clean_replace _ _ _ := trivial

/-- A journal in memory is in working order whatever it holds. -/
theorem MemoryJournal.sound (directory : String) (journal : MemoryJournal) :
  LawfulJournal.Sound directory journal
  := trivial

/-- A journal in memory is told to refuse, or to do so no more. -/
instance : HazardousJournal MemoryJournal where
  Hazard := Bool
  befall journal refusing := { journal with refusing := refusing }
  Mild _ := True
  sound_befall _ _ := trivial
  stuck_befall _ := .rfl
  held_befall _ := rfl
  clean_befall _ _ := trivial

end IslandPlots
