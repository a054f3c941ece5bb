import IslandPlots.Proofs.Allocator.Run

/-!
# What a journal does does not depend on what is written

Whether a journal acknowledges an operation does not depend on the lines that it holds or is
given, as long as it is in working order and clean.  What it does depend on is the outline of
the journal (`OutlinedJournal`): for a journal in a file, which names the disk has, but not
what the files hold.  Only when the device fails the number of bytes that were stored shows how
long the lines were (`JournalFault.uncounted`).
-/

namespace IslandPlots

open LawfulJournal (Sound Clean)

/-- A fault without the number of bytes that the device has stored. -/
def JournalFault.uncounted : JournalFault → JournalFault
  | .device path _ => .device path 0
  | fault => fault

/-! ### Disks -/

namespace Disk

/-- The disk on which all files are emptied. -/
def outline (disk : Disk) : Disk :=
  { disk with contents := disk.contents.map fun _ => [] }

/-- Replacing the content of a file does not show in the outline. -/
theorem outline_edit (disk : Disk) (number : Nat) (bytes : Text.Bytes) :
  (disk.edit number bytes).outline = disk.outline
  := by
  unfold outline edit
  simp

/-- The outline of a disk has the entries of the disk. -/
theorem entry?_outline (disk : Disk) :
  disk.outline.entry? = disk.entry?
  := entry?_congr rfl

/-- What opening a file does to the outline. -/
theorem outline_openFile (disk : Disk) (location : Location) :
  (disk.openFile location).map (fun opened => (opened.1, opened.2.outline))
    = disk.outline.openFile location
  := by
  unfold openFile
  rw [entry?_outline]
  rcases disk.entry? location with _ | _ | number
  · simp [outline, bind, Except.map]
  · rfl
  · rfl

/-- What storing a file does to the outline. -/
theorem outline_store (disk : Disk) (location : Location) (bytes : Text.Bytes) :
  (disk.store location bytes).map outline = (disk.outline.openFile location).map Prod.snd
  := by
  rw [← outline_openFile, store]
  rcases disk.openFile location with cause | ⟨number, opened⟩
  · rfl
  · change Except.ok (((opened.edit number _).edit number _).outline) = Except.ok opened.outline
    rw [outline_edit, outline_edit]

/-- What renaming a file does to the outline. -/
theorem outline_rename (disk : Disk) (source target : Location) :
  (disk.rename source target).map outline = disk.outline.rename source target
  := by
  unfold rename
  rw [entry?_outline]
  rcases disk.entry? source with _ | entry
  · rfl
  · rcases disk.entry? target with _ | _ | number <;> rfl

end Disk

/-- Two results that a function makes equal are the same error, or values that the function
makes equal. -/
theorem exists_of_map_eq_map
    {ε α β : Type} {f : α → β} {x y : Except ε α} (h : x.map f = y.map f) :
  (∃ e, x = .error e ∧ y = .error e) ∨ ∃ a b, x = .ok a ∧ y = .ok b ∧ f a = f b
  := by
  rcases x with e | a <;> rcases y with e' | b
  · cases h
    exact .inl ⟨e, rfl, rfl⟩
  · cases h
  · cases h
  · exact .inr ⟨a, b, rfl, rfl, Except.ok.inj h⟩

/-- Two results of which a function makes the errors equal are errors that the function makes
equal, or the same value. -/
theorem exists_of_mapError_eq_mapError
    {ε ε' α : Type} {f : ε → ε'} {x y : Except ε α} (h : x.mapError f = y.mapError f) :
  (∃ e e', x = .error e ∧ y = .error e' ∧ f e = f e') ∨ ∃ a, x = .ok a ∧ y = .ok a
  := by
  rcases x with e | a <;> rcases y with e' | b
  · exact .inl ⟨e, e', rfl, rfl, Except.error.inj h⟩
  · cases h
  · cases h
  · cases h
    exact .inr ⟨a, rfl, rfl⟩

/-! ### Journals -/

/-- A journal that decides by its outline what it acknowledges. -/
class OutlinedJournal (J : Type) [Journal J] [LawfulJournal J] [ReopenableJournal J]
    [HazardousJournal J] where
  /-- What is left of a journal without the lines that were written. -/
  Outline : Type
  /-- The outline of a journal. -/
  outline : J → Outline
  location_congr : ∀ {journal other : J},
    outline journal = outline other → Journal.location journal = Journal.location other
  append_congr : ∀ {directory : String} {journal other : J} (lines lines' : List String),
    Sound directory journal → Sound directory other → Clean journal → Clean other →
    outline journal = outline other →
      (Journal.append journal lines).result.mapError JournalFault.uncounted
          = (Journal.append other lines').result.mapError JournalFault.uncounted
        ∧ outline (Journal.append journal lines).state = outline (Journal.append other lines').state
  replace_congr : ∀ {directory : String} {journal other : J} (lines lines' : List String),
    Sound directory journal → outline journal = outline other →
      (Journal.replace journal lines).result = (Journal.replace other lines').result
        ∧ outline (Journal.replace journal lines).state
          = outline (Journal.replace other lines').state
  befall_congr : ∀ {journal other : J} (hazard : HazardousJournal.Hazard J),
    outline journal = outline other →
      outline (HazardousJournal.befall journal hazard)
        = outline (HazardousJournal.befall other hazard)
  fresh_congr : ∀ {journal other : J}, outline journal = outline other →
    outline (ReopenableJournal.fresh journal) = outline (ReopenableJournal.fresh other)

/-- A journal in memory acknowledges everything unless it was told to refuse. -/
instance : OutlinedJournal MemoryJournal where
  Outline := Bool
  outline := MemoryJournal.refusing
  location_congr _ := rfl
  append_congr := by
    rintro - ⟨old, refusing⟩ ⟨old', refusing'⟩ lines lines' - - - - hsame
    obtain rfl : refusing = refusing' := hsame
    cases refusing <;> exact ⟨rfl, rfl⟩
  replace_congr := by
    rintro - ⟨old, refusing⟩ ⟨old', refusing'⟩ lines lines' - hsame
    obtain rfl : refusing = refusing' := hsame
    cases refusing <;> exact ⟨rfl, rfl⟩
  befall_congr _ _ := rfl
  fresh_congr := id

namespace FileJournal

/-- The journal on the disk on which all files are emptied. -/
def outline (journal : FileJournal) : FileJournal :=
  { journal with disk := journal.disk.outline }

/-- What an append does to the outline of a clean journal: a failure of the device is met. -/
theorem Sound.outline_append
    {directory : String} {journal : FileJournal} (h : journal.Sound directory)
    (hclean : journal.Clean) (lines : List String) :
  (journal.append lines).result.mapError JournalFault.uncounted
      = (if journal.outline.fault = none then .ok () else .error (.device journal.outline.path 0))
    ∧ (journal.append lines).state.outline = { journal.outline with fault := none }
  := by
  obtain ⟨hremnant, hmild⟩ := hclean
  rw [h.append_eq hremnant]
  rcases hfault : journal.fault with _ | ⟨keep, _ | _⟩
  · have hcalm : journal.outline.fault = none := hfault
    rw [if_pos hcalm]
    refine ⟨rfl, ?_⟩
    change ({ journal with
      disk := (journal.disk.edit journal.handle (journal.content ++ journal.newBytes lines)).outline
      fault := none } : FileJournal) = _
    rw [Disk.outline_edit]
    rfl
  · have hpending : journal.outline.fault ≠ none := by
      rw [show journal.outline.fault = journal.fault from rfl, hfault]
      nofun
    rw [if_neg hpending]
    exact ⟨rfl, rfl⟩
  · cases hmild _ hfault

/-- Journals with one outline differ in what their files hold. -/
theorem exists_disk
    {journal other : FileJournal} (h : journal.outline = other.outline) :
  ∃ disk : Disk, other = { journal with disk := disk } ∧ journal.disk.outline = disk.outline
  := by
  obtain ⟨disk, path, directory, handle, remnant, fault, mishap⟩ := journal
  obtain ⟨disk', path', directory', handle', remnant', fault', mishap'⟩ := other
  simp only [outline, mk.injEq] at h
  obtain ⟨hdisk, rfl, rfl, rfl, rfl, rfl, rfl⟩ := h
  use disk', rfl, hdisk

variable (journal : FileJournal) {disk : Disk}

/-- What is prepared for a replacement has one outline whatever it holds. -/
theorem outline_draft
    (h : journal.disk.outline = disk.outline) (bytes bytes' : Text.Bytes) :
  (journal.draft bytes).map Disk.outline
    = (({ journal with disk := disk } : FileJournal).draft bytes').map Disk.outline
  := by
  have hpath : ({ journal with disk := disk } : FileJournal).draftPath = journal.draftPath := rfl
  unfold draft
  rw [hpath]
  rcases Disk.pathOf journal.draftPath with cause | path
  · rfl
  · change (journal.disk.store _ bytes).map _ = (disk.store _ bytes').map _
    rw [Disk.outline_store, Disk.outline_store, h]
    rfl

/-- Replacing journals with one outline has one result and leaves one outline, unless the device is
to fail. -/
theorem outline_replace
    (hcalm : journal.mishap = none) (h : journal.disk.outline = disk.outline)
    (lines lines' : List String) :
  let other : FileJournal := { journal with disk := disk }
  (journal.replace lines).result = (other.replace lines').result
    ∧ (journal.replace lines).state.outline = (other.replace lines').state.outline
  := by
  intro other
  have hplace : other.place = journal.place := rfl
  have hdraftPlace : other.draftPlace = journal.draftPlace := rfl
  have hmoved : ∀ {moved moved' : Disk}, moved.outline = moved'.outline →
      ({ journal with disk := moved } : FileJournal).outline
        = ({ journal with disk := moved' } : FileJournal).outline := by
    intro moved moved' hsame
    exact congrArg (fun disk => ({ journal with disk := disk } : FileJournal)) hsame
  have hcalm' : other.mishap = none := hcalm
  rw [replace_of_mishap hcalm, replace_of_mishap hcalm', hplace, hdraftPlace]
  rcases exists_of_map_eq_map
      (journal.outline_draft h (Text.writeLines lines) (Text.writeLines lines')) with
    ⟨cause, hdraft, hdraft'⟩ | ⟨drafted, drafted', hdraft, hdraft', hdrafted⟩
  · rw [hdraft, hdraft']
    exact ⟨rfl, hmoved h⟩
  have hrename : (drafted.rename journal.draftPlace journal.place).map Disk.outline
      = (drafted'.rename journal.draftPlace journal.place).map Disk.outline := by
    rw [Disk.outline_rename, Disk.outline_rename, hdrafted]
  rw [hdraft, hdraft']
  rcases exists_of_map_eq_map hrename with
    ⟨cause, hrename, hrename'⟩ | ⟨renamed, renamed', hrename, hrename', hrenamed⟩
  · simp only [hrename, hrename']
    exact ⟨rfl, hmoved hdrafted⟩
  have hopen : (renamed.openFile journal.place).map (fun opened => (opened.1, opened.2.outline))
      = (renamed'.openFile journal.place).map fun opened => (opened.1, opened.2.outline) := by
    rw [Disk.outline_openFile, Disk.outline_openFile, hrenamed]
  rcases exists_of_map_eq_map hopen with
    ⟨cause, hopen, hopen'⟩ | ⟨⟨handle, after⟩, ⟨handle', after'⟩, hopen, hopen', hopened⟩
  · simp only [hrename, hrename', hopen, hopen']
    exact ⟨rfl, hmoved hrenamed⟩
  · obtain ⟨rfl, hafter⟩ := Prod.mk.inj hopened
    simp only [hrename, hrename', hopen, hopen']
    refine ⟨rfl, ?_⟩
    exact congrArg (fun disk =>
      ({ journal with disk := disk, handle := handle, remnant := none } : FileJournal)) hafter

end FileJournal

/-- A journal in a file decides by the names on the disk and the faults of the device. -/
instance : OutlinedJournal FileJournal where
  Outline := FileJournal
  outline := FileJournal.outline
  location_congr := by
    intro journal other hsame
    obtain ⟨disk, rfl, -⟩ := FileJournal.exists_disk hsame
    rfl
  append_congr := by
    intro directory journal other lines lines' hsound hother hclean hclean' hsame
    obtain ⟨hresult, hstate⟩ := FileJournal.Sound.outline_append hsound hclean lines
    obtain ⟨hresult', hstate'⟩ := FileJournal.Sound.outline_append hother hclean' lines'
    rw [hsame] at hresult hstate
    exact ⟨hresult.trans hresult'.symm, hstate.trans hstate'.symm⟩
  replace_congr := by
    intro directory journal other lines lines' hsound hsame
    obtain ⟨disk, rfl, hdisk⟩ := FileJournal.exists_disk hsame
    exact journal.outline_replace (FileJournal.Sound.calm hsound) hdisk lines lines'
  befall_congr := by
    intro journal other fault hsame
    exact congrArg (fun journal => { journal with fault := some fault }) hsame
  fresh_congr := by
    intro journal other hsame
    exact congrArg FileJournal.fresh hsame

end IslandPlots
