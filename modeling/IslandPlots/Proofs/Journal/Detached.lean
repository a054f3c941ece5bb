import IslandPlots.Proofs.Journal.File

/-!
# Journals whose log was replaced behind their back

A replacement that fails after the draft has been renamed leaves the new file under the name of the
log, while the old file stays the open one.  So the name of the log leads to a file, but not to the
one that the journal writes to (`FileJournal.Named`), and the file that it writes to has no name any
more (`FileJournal.Detached`).  The next replacement that succeeds, and opening the journal anew,
bring the two together again.
-/

namespace IslandPlots

namespace FileJournal

/-! ### The file under the name of the log -/

/-- The name of the log leads to the file with a given number, which need not be the open one. -/
structure Named (directory : String) (number : Nat) (journal : FileJournal) : Prop where
  linked : { journal with handle := number }.Linked directory
  handle_lt : journal.handle < journal.disk.contents.length

/-- The name of the log leads to the open file of a linked journal. -/
theorem Linked.named {directory : String} {journal : FileJournal} (h : journal.Linked directory) :
  journal.Named directory journal.handle
  := ⟨h, h.handle_lt⟩

namespace Named

variable {directory : String} {number : Nat} {journal : FileJournal}
  (h : journal.Named directory number)

include h

/-- The name of the log leads to a file. -/
theorem entry :
  journal.disk.entry? journal.place = some (.file number)
  := h.linked.entry

/-- The file under the name of the log is read there. -/
theorem read_place :
  journal.disk.read journal.place = .ok (journal.disk.content number)
  := h.linked.read_place

/-- The directory of the journal is there. -/
theorem based :
  journal.Based directory
  := ⟨h.linked.wellFormed, h.linked.pathOf_directory, h.linked.path, h.linked.pathOf_path,
    h.linked.walk, h.linked.isDirectory, h.linked.based.entry, h.handle_lt⟩

/-- Remnants and pending failures do not matter to the name. -/
theorem of_same (remnant : Option Remnant) (fault : Option ShortWrite) (mishap : Option Mishap) :
  { journal with remnant := remnant, fault := fault, mishap := mishap }.Named directory number
  := ⟨h.linked.of_same remnant fault mishap, h.handle_lt⟩

/-- An append leaves the name of the log where it leads. -/
theorem append (lines : List String) :
  (journal.append lines).state.Named directory number
  := by
  obtain ⟨bytes, remnant, fault, heq⟩ := journal.state_append lines
  rw [heq]
  refine ⟨(h.linked.edit journal.handle bytes).of_same remnant fault journal.mishap, ?_⟩
  change journal.handle < (journal.disk.contents.set journal.handle bytes).length
  rw [List.length_set]
  exact h.handle_lt

/-- The name of the log leads where it has led on a disk that has what is named. -/
theorem of_keeps
    {disk : Disk} (hwf : disk.WellFormed) (hkeeps : journal.disk.Keeps disk)
    (hentry : disk.entry? journal.place = journal.disk.entry? journal.place)
    (hlength : journal.disk.contents.length ≤ disk.contents.length) (mishap : Option Mishap) :
  { journal with disk := disk, mishap := mishap }.Named directory number
  := ⟨⟨hwf, h.linked.pathOf_directory, h.linked.path, h.linked.pathOf_path,
      hkeeps.walk h.linked.walk, hkeeps.directory h.linked.isDirectory, hentry.trans h.entry⟩,
    Nat.lt_of_lt_of_le h.handle_lt hlength⟩

/-- A draft leaves the name of the log where it leads. -/
theorem draft
    {bytes : Text.Bytes} {drafted : Disk} (hdraft : journal.draft bytes = .ok drafted)
    (mishap : Option Mishap) :
  { journal with disk := drafted, mishap := mishap }.Named directory number
  := by
  obtain ⟨_, hstored⟩ := h.linked.wellFormed.store (store_of_draft hdraft)
  exact h.of_keeps hstored.wellFormed hstored.keeps
    (hstored.elsewhere _ journal.draftPlace_ne_place.symm) hstored.length_le mishap

/-- A draft leaves the content of the file under the name of the log. -/
theorem content_draft
    {bytes : Text.Bytes} {drafted : Disk} (hdraft : journal.draft bytes = .ok drafted) :
  drafted.content number = journal.disk.content number
  := by
  obtain ⟨_, hstored⟩ := h.linked.wellFormed.store (store_of_draft hdraft)
  have hread : drafted.read journal.place = journal.disk.read journal.place :=
    hstored.read_of_ne h.linked.wellFormed journal.draftPlace_ne_place.symm
  rw [h.read_place] at hread
  exact Except.ok.inj ((h.draft hdraft none).read_place.symm.trans hread)

/-- A draft that has been put in the place of the log is found under its name. -/
theorem placed
    {bytes : Text.Bytes} {new : Nat} {disk : Disk} (hplaced : journal.Placed bytes new disk)
    (mishap : Option Mishap) :
  { journal with disk := disk, mishap := mishap }.Named directory new
  := ⟨h.based.linked_of_placed hplaced journal.remnant mishap,
    Nat.lt_of_lt_of_le h.handle_lt hplaced.length_le⟩

/-- A replacement leaves some file under the name of the log. -/
theorem replace (lines : List String) :
  ∃ new, (journal.replace lines).state.Named directory new
  := by
  rcases h.based.replace_ends lines with
    ⟨cause, -, heq⟩ | ⟨drafted, fault, hdraft, -, heq⟩ | ⟨disk, new, fault, hplaced, -, heq⟩
      | ⟨disk, new, hplaced, heq⟩
  · rw [heq]
    exact ⟨number, h⟩
  · rw [heq]
    exact ⟨number, h.draft hdraft none⟩
  · rw [heq]
    exact ⟨new, h.placed hplaced none⟩
  · rw [heq]
    exact ⟨new, (h.based.linked_of_placed hplaced none journal.mishap).named⟩

end Named

/-! ### Files without a name -/

/-- The name of the log leads to another file than the open one, which has no name.  But for this
the journal is in working order. -/
structure Detached (directory : String) (journal : FileJournal) : Prop where
  exists_sound : ∃ number, { journal with handle := number }.Sound directory
  nameless : ∀ location, journal.disk.entry? location ≠ some (.file journal.handle)
  handle_lt : journal.handle < journal.disk.contents.length

namespace Detached

variable {directory : String} {journal : FileJournal} (h : journal.Detached directory)

include h

/-- Appends do not reach the file under the name of the log. -/
theorem append (lines : List String) :
  (journal.append lines).state.Detached directory
  := by
  obtain ⟨number, hsound⟩ := h.exists_sound
  obtain ⟨bytes, remnant, fault, heq⟩ := journal.state_append lines
  have hentry := journal.disk.entry?_edit journal.handle bytes
  have hne : journal.handle ≠ number := by
    rintro rfl
    exact h.nameless _ hsound.entry
  rw [heq]
  refine ⟨⟨number, ?_⟩, ?_, ?_⟩
  · apply ((hsound.linked.edit journal.handle bytes).of_same remnant fault journal.mishap).sound
    · change Text.Terminable ((journal.disk.edit journal.handle bytes).content number)
      simpa [hne, content] using hsound.terminable
    · exact hsound.calm
  · intro location
    change Disk.entry? (journal.disk.edit journal.handle bytes) location ≠ _
    rw [hentry]
    exact h.nameless location
  · change journal.handle < (journal.disk.contents.set journal.handle bytes).length
    rw [List.length_set]
    exact h.handle_lt

/-- The device will not fail in the next replacement. -/
theorem mishap :
  journal.mishap = none
  := by
  obtain ⟨number, hsound⟩ := h.exists_sound
  exact hsound.calm

/-- A pending failure of the device does not matter to the names. -/
theorem of_fault (fault : Option ShortWrite) :
  { journal with fault := fault }.Detached directory
  := by
  obtain ⟨number, hsound⟩ := h.exists_sound
  exact ⟨⟨number, hsound.of_same journal.remnant fault⟩, h.nameless, h.handle_lt⟩

end Detached

/-! ### Replacements in which the device fails -/

/-- The journal whose next replacement fails. -/
def strike (journal : FileJournal) (mishap : Mishap) : FileJournal :=
  { journal with mishap := some mishap }

/-- The journal whose next replacement does not fail. -/
def calm (journal : FileJournal) : FileJournal :=
  { journal with mishap := none }

/-- A journal whose next replacement does not fail is calm. -/
theorem calm_of_mishap
    {journal : FileJournal} (h : journal.mishap = none) :
  journal.calm = journal
  := by
  rw [calm, ← h]

/-- A replacement brings no failure about. -/
theorem mishap_replace
    {journal : FileJournal} (h : journal.mishap = none) (lines : List String) :
  (journal.replace lines).state.mishap = none
  := by
  have hends := journal.replacement_replace lines
  generalize journal.replace lines = replaced at hends ⊢
  cases hends with
  | refused | misplaced | done => exact h
  | spoiled | detached => rfl

section

variable {directory : String} {journal : FileJournal} {lines : List String}
  (hlines : ∀ line ∈ lines, Text.Unbroken line)

include hlines

/-- A journal whose log was replaced by written lines is in working order when the new file is the
open one. -/
theorem Based.sound_of_placed
    (h : journal.Based directory) {number : Nat} {disk : Disk}
    (hplaced : journal.Placed (Text.writeLines lines) number disk) (remnant : Option Remnant) :
  { journal with disk := disk, handle := number, remnant := remnant, mishap := none }.Sound
    directory
  := (h.linked_of_placed hplaced remnant none).sound (hplaced.terminable hlines) rfl

/-- When the open file is still the old one, and had no name but that of the log, the log was
replaced behind the back of the journal. -/
theorem Named.detached_of_placed
    {number : Nat} (h : journal.Named directory number) {new : Nat} {disk : Disk}
    (hplaced : journal.Placed (Text.writeLines lines) new disk)
    (hold : ∀ location, journal.disk.entry? location = some (.file journal.handle) →
      location = journal.place) :
  { journal with disk := disk, mishap := none }.Detached directory
  := ⟨⟨new, h.based.sound_of_placed hlines hplaced journal.remnant⟩,
    hplaced.nameless journal.handle h.handle_lt hold, (h.placed hplaced none).handle_lt⟩

/-- How a replacement ends in a journal that is in working order but for a failure of the device to
come.  It succeeds, and the lines are in the log; or it fails, and nothing has become of the log, or
the log was replaced behind the back of the journal. -/
theorem Sound.replace_calm (h : journal.calm.Sound directory) :
  let written := journal.replace lines
  let after := written.state.calm
  (written.result = .ok () ∧ after.Sound directory ∧ after.remnant = none
      ∧ Text.readLines after.content = lines)
    ∨ (∃ fault, written.result = .error fault ∧ after.Sound directory
      ∧ after.remnant = journal.remnant ∧ after.content = journal.content)
    ∨ ∃ fault, written.result = .error fault ∧ after.Detached directory
  := by
  intro written after
  have hlinked : journal.Linked directory := h.linked.of_same _ journal.fault journal.mishap
  rcases hlinked.based.replace_ends lines with
    ⟨cause, -, heq⟩ | ⟨drafted, fault, hdraft, -, heq⟩ | ⟨disk, new, fault, hplaced, -, heq⟩
      | ⟨disk, new, hplaced, heq⟩
  · right
    left
    refine ⟨_, congrArg Outcome.result heq, ?_⟩
    simp only [after, written, heq]
    exact ⟨h, rfl, rfl⟩
  · right
    left
    have hcontent := hlinked.named.content_draft hdraft
    refine ⟨fault, congrArg Outcome.result heq, ?_⟩
    simp only [after, written, heq]
    refine ⟨(hlinked.named.draft hdraft none).linked.sound ?_ rfl, rfl, hcontent⟩
    change Text.Terminable (drafted.content journal.handle)
    rw [hcontent]
    exact h.terminable
  · right
    right
    refine ⟨fault, congrArg Outcome.result heq, ?_⟩
    simp only [after, written, heq]
    apply hlinked.named.detached_of_placed hlines hplaced
    intro location hlocation
    exact hlinked.wellFormed.unique hlocation hlinked.entry
  · left
    refine ⟨congrArg Outcome.result heq, ?_⟩
    simp only [after, written, heq]
    exact ⟨hlinked.based.sound_of_placed hlines hplaced none, rfl, hplaced.readLines hlines⟩

/-- How a replacement ends in a journal whose log was replaced behind its back.  It succeeds, and
the lines are in the log, which is the open file again; or it fails, and the open file is another
one still. -/
theorem Detached.replace_calm (h : journal.calm.Detached directory) :
  let written := journal.replace lines
  let after := written.state.calm
  (written.result = .ok () ∧ after.Sound directory ∧ after.remnant = none
      ∧ Text.readLines after.content = lines)
    ∨ ∃ fault, written.result = .error fault ∧ after.Detached directory
  := by
  intro written after
  obtain ⟨number, hsound⟩ := h.exists_sound
  have hnamed : journal.Named directory number :=
    ⟨hsound.linked.of_same _ journal.fault journal.mishap, h.handle_lt⟩
  rcases hnamed.based.replace_ends lines with
    ⟨cause, -, heq⟩ | ⟨drafted, fault, hdraft, -, heq⟩ | ⟨disk, new, fault, hplaced, -, heq⟩
      | ⟨disk, new, hplaced, heq⟩
  · right
    refine ⟨_, congrArg Outcome.result heq, ?_⟩
    simp only [after, written, heq]
    exact h
  · right
    refine ⟨fault, congrArg Outcome.result heq, ?_⟩
    simp only [after, written, heq]
    have hdrafted := hnamed.draft hdraft none
    refine ⟨⟨number, hdrafted.linked.sound ?_ rfl⟩, ?_, hdrafted.handle_lt⟩
    · change Text.Terminable (drafted.content number)
      rw [hnamed.content_draft hdraft]
      exact hsound.terminable
    · obtain ⟨_, hstored⟩ := hnamed.linked.wellFormed.store (store_of_draft hdraft)
      intro location hlocation
      exact h.nameless location ((hstored.entry?_iff h.handle_lt location).1 hlocation)
  · right
    refine ⟨fault, congrArg Outcome.result heq, ?_⟩
    simp only [after, written, heq]
    apply hnamed.detached_of_placed hlines hplaced
    intro location hlocation
    exact absurd hlocation (h.nameless location)
  · left
    refine ⟨congrArg Outcome.result heq, ?_⟩
    simp only [after, written, heq]
    exact ⟨hnamed.based.sound_of_placed hlines hplaced none, rfl, hplaced.readLines hlines⟩

end

end FileJournal

end IslandPlots
