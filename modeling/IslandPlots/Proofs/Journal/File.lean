import IslandPlots.Journal.File
import IslandPlots.Proofs.Disk.Directories
import IslandPlots.Proofs.Journal.Failing
import IslandPlots.Proofs.Journal.Laws

/-!
# Journals in files are lawful

A journal in a file is linked when the name of the log leads to the file that was opened
(`FileJournal.Linked`), which is so as long as nobody else removes the file or gives its name
away.  Then an append writes at the end of what is read, and a journal that is opened anew is the
journal without its pending fault and without its remnant (`FileJournal.Linked.open_eq`).

It is in working order when, besides, the content of the file does not end with a carriage
return, which the line feed before an append would swallow (`FileJournal.Sound`).  This is so as
long as nobody else writes to the storage directory.
-/

namespace IslandPlots

namespace FileJournal

/-- The name of the log in a directory leads to the file that was opened. -/
structure Linked (directory : String) (journal : FileJournal) : Prop where
  wellFormed : journal.disk.WellFormed
  pathOf_directory : Disk.pathOf directory = .ok (Path.ofText directory)
  path : journal.path = Path.join directory logFileName
  pathOf_path : ∃ path, Disk.pathOf journal.path = .ok path
  walk : journal.disk.walk (Path.ofText directory) = .ok journal.directory
  isDirectory : journal.disk.entry? journal.directory = some .directory
  entry : journal.disk.entry? journal.place = some (.file journal.handle)

namespace Linked

variable {directory : String} {journal : FileJournal} (h : journal.Linked directory)

include h

/-- The file of a journal exists. -/
theorem handle_lt :
  journal.handle < journal.disk.contents.length
  := h.wellFormed.exists_file h.entry

/-- Reading by name gives the content of the open file. -/
theorem read_place :
  journal.disk.read journal.place = .ok journal.content
  := by
  unfold Disk.read
  rw [h.entry]
  rfl

/-- The lines are those of the content. -/
theorem lines_eq :
  journal.lines = .ok (Text.readLines journal.content)
  := by
  unfold lines readFile
  rw [h.read_place]

/-- The look at the last byte tells whether the last line is unfinished. -/
theorem isTorn_eq :
  journal.isTorn = .ok (Text.isUnfinished journal.content)
  := by
  unfold isTorn
  rw [h.read_place]
  rcases List.eq_nil_or_concat journal.content with hnil | ⟨front, byte, hcontent⟩
  · rw [hnil]
    rfl
  · rw [hcontent]
    simp [Text.isUnfinished]

/-- Remnants and pending failures do not matter to the name. -/
theorem of_same (remnant : Option Remnant) (fault : Option ShortWrite) (mishap : Option Mishap) :
  { journal with remnant := remnant, fault := fault, mishap := mishap }.Linked directory
  := ⟨h.wellFormed, h.pathOf_directory, h.path, h.pathOf_path, h.walk, h.isDirectory, h.entry⟩

/-- The name leads to the file also when the content of a file is replaced. -/
theorem edit (number : Nat) (bytes : Text.Bytes) :
  { journal with disk := journal.disk.edit number bytes }.Linked directory
  := by
  have hkeeps := journal.disk.keeps_edit number bytes
  refine ⟨h.wellFormed.edit _ _, h.pathOf_directory, h.path, h.pathOf_path, hkeeps.walk h.walk,
    hkeeps.directory h.isDirectory, ?_⟩
  rw [Disk.entry?_edit]
  exact h.entry

end Linked

/-- The directory of a journal is there, and a file can be opened in it under the name of the log,
though it need not be the one that was opened. -/
structure Based (directory : String) (journal : FileJournal) : Prop where
  wellFormed : journal.disk.WellFormed
  pathOf_directory : Disk.pathOf directory = .ok (Path.ofText directory)
  path : journal.path = Path.join directory logFileName
  pathOf_path : ∃ path, Disk.pathOf journal.path = .ok path
  walk : journal.disk.walk (Path.ofText directory) = .ok journal.directory
  isDirectory : journal.disk.entry? journal.directory = some .directory
  entry : journal.disk.entry? journal.place ≠ some .directory
  handle_lt : journal.handle < journal.disk.contents.length

/-- A linked journal has its directory. -/
theorem Linked.based {directory : String} {journal : FileJournal} (h : journal.Linked directory) :
  journal.Based directory
  := by
  refine ⟨h.wellFormed, h.pathOf_directory, h.path, h.pathOf_path, h.walk, h.isDirectory, ?_,
    h.handle_lt⟩
  rw [h.entry]
  nofun

/-- The journal in a directory is in working order, and the device will not fail in the next
replacement. -/
structure Sound (directory : String) (journal : FileJournal) : Prop where
  wellFormed : journal.disk.WellFormed
  pathOf_directory : Disk.pathOf directory = .ok (Path.ofText directory)
  path : journal.path = Path.join directory logFileName
  pathOf_path : ∃ path, Disk.pathOf journal.path = .ok path
  walk : journal.disk.walk (Path.ofText directory) = .ok journal.directory
  isDirectory : journal.disk.entry? journal.directory = some .directory
  entry : journal.disk.entry? journal.place = some (.file journal.handle)
  terminable : Text.Terminable journal.content
  calm : journal.mishap = none

/-- A linked journal is in working order if its file can be continued and the device will not fail
in a replacement. -/
theorem Linked.sound
    {directory : String} {journal : FileJournal} (h : journal.Linked directory)
    (hterminable : Text.Terminable journal.content) (hcalm : journal.mishap = none) :
  journal.Sound directory
  := ⟨h.wellFormed, h.pathOf_directory, h.path, h.pathOf_path, h.walk, h.isDirectory, h.entry,
    hterminable, hcalm⟩

namespace Sound

variable {directory : String} {journal : FileJournal} (h : journal.Sound directory)

include h

/-- In a journal in working order the name leads to the file. -/
theorem linked :
  journal.Linked directory
  := ⟨h.wellFormed, h.pathOf_directory, h.path, h.pathOf_path, h.walk, h.isDirectory, h.entry⟩

/-- The file of a journal exists. -/
theorem handle_lt :
  journal.handle < journal.disk.contents.length
  := h.linked.handle_lt

/-- Remnants and pending faults do not matter to the working order. -/
theorem of_same (remnant : Option Remnant) (fault : Option ShortWrite) :
  { journal with remnant := remnant, fault := fault }.Sound directory
  := (h.linked.of_same remnant fault journal.mishap).sound h.terminable h.calm

/-- The journal stays in working order when the content of its file is replaced. -/
theorem edit {bytes : Text.Bytes} (hbytes : Text.Terminable bytes) (remnant : Option Remnant)
    (fault : Option ShortWrite) :
  { journal with
    disk := journal.disk.edit journal.handle bytes
    remnant := remnant
    fault := fault }.Sound directory
  := by
  refine ((h.linked.edit journal.handle bytes).of_same remnant fault journal.mishap).sound ?_ h.calm
  change Text.Terminable ((journal.disk.edit journal.handle bytes).content journal.handle)
  simpa [h.handle_lt] using hbytes

end Sound

/-! ### Appending -/

/-- The bytes that an append of lines has to write. -/
def newBytes (journal : FileJournal) (lines : List String) : Text.Bytes :=
  Text.ending journal.content ++ Text.writeLines lines

/-- An append to a journal that is not stuck writes its bytes. -/
theorem Linked.append_eq {directory : String} {journal : FileJournal} (h : journal.Linked directory)
    (hremnant : journal.remnant = none) (lines : List String) :
  journal.append lines = journal.writeBytes (journal.newBytes lines)
  := by
  unfold append
  simp only [hremnant, h.isTorn_eq]
  rfl

/-- What an append does to a journal that is not stuck: it writes at the end of the content,
or the device fails and the bytes that were stored stay in the file or do not. -/
theorem Sound.append_eq {directory : String} {journal : FileJournal} (h : journal.Sound directory)
    (hremnant : journal.remnant = none) (lines : List String) :
  journal.append lines = match journal.fault with
    | none =>
      .ok () { journal with
        disk := journal.disk.edit journal.handle (journal.content ++ journal.newBytes lines) }
    | some fault =>
      let failure := JournalFault.device journal.path
        (min fault.keep (journal.newBytes lines).length)
      if fault.stuck then
        .fail failure
          { journal with
            disk := journal.disk.edit journal.handle
              (journal.content ++ (journal.newBytes lines).take fault.keep)
            remnant := some ⟨journal.content.length⟩
            fault := none }
          [.stuck journal.path ⟨journal.content.length⟩]
      else .fail failure { journal with fault := none }
  := by
  rw [h.linked.append_eq hremnant]
  unfold writeBytes
  rcases journal.fault with _ | ⟨keep, _ | _⟩
  · rfl
  · simp only [Bool.false_eq_true, if_false]
    simp [FileJournal.content]
  · simp only [if_true]
    rw [Disk.write_eq_edit, ← List.take_eq_take_min]
    rfl

/-- An append to a stuck journal is refused. -/
theorem append_of_remnant {journal : FileJournal} {remnant : Remnant}
    (h : journal.remnant = some remnant) (lines : List String) :
  journal.append lines = .fail (.unusable journal.path remnant) journal
  := by
  unfold append
  rw [h]

/-- A journal whose draft has been put in the place of the log is linked when the new file is the
open one. -/
theorem Based.linked_of_placed
    {directory : String} {journal : FileJournal} (h : journal.Based directory) {bytes : Text.Bytes}
    {number : Nat} {disk : Disk} (hplaced : journal.Placed bytes number disk)
    (remnant : Option Remnant) (mishap : Option Mishap) :
  { journal with disk := disk, handle := number, remnant := remnant, mishap := mishap }.Linked
    directory
  := ⟨hplaced.wellFormed, h.pathOf_directory, h.path, h.pathOf_path, hplaced.keeps.walk h.walk,
    hplaced.keeps.directory h.isDirectory, hplaced.entry⟩

/-- A draft can be put in the place of the log. -/
theorem Based.rename_of_draft
    {directory : String} {journal : FileJournal} (h : journal.Based directory) {bytes : Text.Bytes}
    {drafted : Disk} (hdraft : journal.draft bytes = .ok drafted) :
  ∃ renamed, drafted.rename journal.draftPlace journal.place = .ok renamed
  := by
  obtain ⟨number, hstored⟩ := h.wellFormed.store (store_of_draft hdraft)
  have hplace : drafted.entry? journal.place ≠ some .directory := by
    rw [hstored.elsewhere _ journal.draftPlace_ne_place.symm]
    exact h.entry
  obtain ⟨renamed, hrename, -⟩ := hstored.wellFormed.rename hstored.entry hplace
  exact ⟨renamed, hrename⟩

/-- How a replacement ends in a journal that has its directory: it is refused and changes nothing;
or the device fails and the draft is left behind; or it fails and the file in which the draft was
made is the log, but not the open file; or the file is the log and open, and nothing is left of a
torn append. -/
theorem Based.replace_ends
    {directory : String} {journal : FileJournal} (h : journal.Based directory)
    (lines : List String) :
  (∃ cause, journal.draft (journal.draftBytes (Text.writeLines lines)) = .error cause
      ∧ journal.replace lines = .fail (.makeDraft journal.draftPath cause) journal)
    ∨ (∃ drafted fault, journal.draft (journal.draftBytes (Text.writeLines lines)) = .ok drafted
      ∧ journal.earlyFault? (Text.writeLines lines) = some fault
      ∧ journal.replace lines = .fail fault { journal with disk := drafted, mishap := none })
    ∨ (∃ disk number fault, journal.Placed (Text.writeLines lines) number disk
      ∧ journal.lateFault? = some fault
      ∧ journal.replace lines = .fail fault { journal with disk := disk, mishap := none })
    ∨ ∃ disk number, journal.Placed (Text.writeLines lines) number disk
      ∧ journal.replace lines
        = .ok () { journal with disk := disk, handle := number, remnant := none }
  := by
  have hends := journal.replacement_replace lines
  generalize journal.replace lines = replaced at hends ⊢
  cases hends with
  | refused hdraft => exact .inl ⟨_, hdraft, rfl⟩
  | spoiled hdraft hfault => exact .inr (.inl ⟨_, _, hdraft, hfault, rfl⟩)
  | misplaced hdraft hrename =>
    obtain ⟨renamed, hrenamed⟩ := h.rename_of_draft hdraft
    cases hrename.symm.trans hrenamed
  | detached hdraft hrename hfault =>
    obtain ⟨number, hplaced⟩ := placed_of_rename h.wellFormed hdraft hrename
    exact .inr (.inr (.inl ⟨_, number, _, hplaced, hfault, rfl⟩))
  | done hdraft hrename hopen =>
    obtain ⟨number, hplaced⟩ := placed_of_rename h.wellFormed hdraft hrename
    cases hopen.symm.trans (Disk.openFile_of_file hplaced.entry)
    exact .inr (.inr (.inr ⟨_, _, hplaced, rfl⟩))

/-- A replacement that succeeds puts its draft in the place of the log and opens it. -/
theorem Based.replace_of_ok
    {directory : String} {journal : FileJournal} (h : journal.Based directory)
    {lines : List String} (hdone : (journal.replace lines).result = .ok ()) :
  ∃ disk number, journal.Placed (Text.writeLines lines) number disk
    ∧ journal.replace lines
      = .ok () { journal with disk := disk, handle := number, remnant := none }
  := by
  rcases h.replace_ends lines with
    ⟨cause, -, heq⟩ | ⟨drafted, fault, -, -, heq⟩ | ⟨disk, number, fault, -, -, heq⟩ | hends
  · rw [heq] at hdone
    cases hdone
  · rw [heq] at hdone
    cases hdone
  · rw [heq] at hdone
    cases hdone
  · exact hends

section

variable {directory : String} {journal : FileJournal} (h : journal.Based directory)
  (hcalm : journal.mishap = none) (lines : List String)

include h hcalm

/-- A replacement is acknowledged, and then the name leads to the new file, which holds the lines,
and nothing is left of a torn append; or it is refused and changes nothing.  So it is unless the
device is to fail. -/
theorem Based.replace_cases :
  (∃ disk handle, journal.replace lines
        = .ok () { journal with disk := disk, handle := handle, remnant := none }
      ∧ journal.Placed (Text.writeLines lines) handle disk)
    ∨ ∃ cause, journal.draft (Text.writeLines lines) = .error cause
      ∧ journal.replace lines = .fail (.makeDraft journal.draftPath cause) journal
  := by
  rcases h.replace_ends lines with
    ⟨cause, hdraft, heq⟩ | ⟨-, fault, -, hfault, -⟩ | ⟨-, -, fault, -, hfault, -⟩
      | ⟨disk, number, hplaced, heq⟩
  · rw [draftBytes_of_earlyFault?_eq_none (earlyFault?_of_mishap hcalm _)] at hdraft
    exact .inr ⟨cause, hdraft, heq⟩
  · cases (earlyFault?_of_mishap hcalm _).symm.trans hfault
  · cases (lateFault?_of_mishap hcalm).symm.trans hfault
  · exact .inl ⟨disk, number, heq, hplaced⟩

end

section

variable {directory : String} {journal : FileJournal} (h : journal.Sound directory)
  {lines : List String} (hlines : ∀ line ∈ lines, Text.Unbroken line)

include h hlines

/-- Written lines follow those of the content. -/
theorem Sound.readLines_newBytes :
  Text.readLines (journal.content ++ journal.newBytes lines)
    = Text.readLines journal.content ++ lines
  := by
  rw [newBytes, ← List.append_assoc, Text.readLines_append_ending h.terminable,
    Text.readLines_writeLines hlines]

/-- An append keeps a journal in working order. -/
theorem Sound.append :
  (journal.append lines).state.Sound directory
  := by
  have hterminable : ∀ k, Text.Terminable (journal.content ++ (journal.newBytes lines).take k) :=
    Text.terminable_append_take h.terminable hlines
  rcases hremnant : journal.remnant with _ | remnant
  · rw [h.append_eq hremnant]
    rcases journal.fault with _ | ⟨keep, _ | _⟩
    · have hnew := hterminable (journal.newBytes lines).length
      rw [List.take_of_length_le (Nat.le_refl _)] at hnew
      exact h.edit hnew journal.remnant _
    · exact h.of_same _ _
    · exact h.edit (hterminable keep) _ _
  · rw [append_of_remnant hremnant]
    exact h

/-- An append is acknowledged, refused or torn. -/
theorem Sound.append_cases
    {written : Outcome JournalFault FileJournal Unit} (hwritten : journal.append lines = written) :
  (written.result = .ok () ∧ ¬ journal.remnant ≠ none ∧ ¬ written.state.remnant ≠ none
      ∧ Text.readLines written.state.content = Text.readLines journal.content ++ lines)
    ∨ (∃ fault, written.result = .error fault
      ∧ (written.state.remnant ≠ none ↔ journal.remnant ≠ none)
      ∧ Text.readLines written.state.content = Text.readLines journal.content)
    ∨ (∃ fault k, written.result = .error fault ∧ ¬ journal.remnant ≠ none
      ∧ written.state.remnant ≠ none
      ∧ Text.readLines written.state.content
        = Text.readLines journal.content ++ Text.torn lines k)
  := by
  subst hwritten
  rcases hremnant : journal.remnant with _ | remnant
  · rw [h.append_eq hremnant]
    have hcontent : ∀ bytes, (journal.disk.edit journal.handle bytes).content journal.handle
        = bytes := Disk.content_edit h.handle_lt
    rcases journal.fault with _ | ⟨keep, _ | _⟩
    · left
      refine ⟨rfl, nofun, fun hne => hne hremnant, ?_⟩
      exact (congrArg Text.readLines (hcontent _)).trans (h.readLines_newBytes hlines)
    · right
      left
      exact ⟨_, rfl, not_congr (iff_of_eq (congrArg (· = none) hremnant)), rfl⟩
    · right
      right
      refine ⟨_, keep - (Text.ending journal.content).length, rfl, nofun, nofun, ?_⟩
      exact (congrArg Text.readLines (hcontent _)).trans
        (Text.readLines_append_take h.terminable hlines keep)
  · rw [append_of_remnant hremnant]
    right
    left
    exact ⟨_, rfl, not_congr (iff_of_eq (congrArg (· = none) hremnant)), rfl⟩

omit h in
/-- A file that holds written lines can be continued. -/
theorem Placed.terminable
    {number : Nat} {disk : Disk} (hplaced : journal.Placed (Text.writeLines lines) number disk) :
  Text.Terminable (disk.content number)
  := by
  intro hlast
  rw [hplaced.content] at hlast
  exact Text.carriageReturn_not_mem_writeLines hlines (List.mem_of_getLast? hlast)

omit h in
/-- A file that holds written lines is read as these lines. -/
theorem Placed.readLines
    {number : Nat} {disk : Disk} (hplaced : journal.Placed (Text.writeLines lines) number disk) :
  Text.readLines (disk.content number) = lines
  := by
  rw [hplaced.content, Text.readLines_writeLines hlines]

/-- A replacement is acknowledged, and then the content is that of the lines and nothing is
left of a torn append, or it is refused and changes nothing. -/
theorem Sound.replace_cases :
  (∃ disk handle, journal.replace lines
        = .ok () { journal with disk := disk, handle := handle, remnant := none }
      ∧ { journal with disk := disk, handle := handle, remnant := none }.Sound directory
      ∧ disk.content handle = Text.writeLines lines)
    ∨ ∃ fault, journal.replace lines = .fail fault journal
  := by
  rcases h.linked.based.replace_cases h.calm lines with
    ⟨disk, handle, hreplace, hplaced⟩ | ⟨cause, -, hrefused⟩
  · have hlinked := h.linked.based.linked_of_placed hplaced none journal.mishap
    left
    refine ⟨disk, handle, hreplace, hlinked.sound ?_ h.calm, hplaced.content⟩
    exact hplaced.terminable hlines
  · exact .inr ⟨_, hrefused⟩

end

/-- No append was torn, and the next one will not be. -/
def Clean (journal : FileJournal) : Prop :=
  journal.remnant = none ∧ ∀ fault, journal.fault = some fault → fault.stuck = false

/-- The journal is torn only by a fault of the device that refuses to cut the file back. -/
theorem Sound.clean_append {directory : String} {journal : FileJournal}
    (h : journal.Sound directory) (hclean : journal.Clean) (lines : List String) :
  (journal.append lines).state.Clean
  := by
  obtain ⟨hremnant, hfault⟩ := hclean
  rw [h.append_eq hremnant]
  rcases hpending : journal.fault with _ | ⟨keep, _ | _⟩
  · exact ⟨hremnant, fun fault h => hfault fault (hpending.trans h)⟩
  · exact ⟨hremnant, nofun⟩
  · cases hfault _ hpending

instance : LawfulJournal FileJournal where
  Sound := Sound
  Stuck journal := journal.remnant ≠ none
  Clean := Clean
  held journal := Text.readLines journal.content
  lines_eq h := (Sound.linked h).lines_eq
  sound_append h hlines := h.append hlines
  append_cases h hlines _ hwritten := h.append_cases hlines hwritten
  sound_replace := by
    intro directory journal lines h hlines
    change (journal.replace lines).state.Sound directory
    rcases h.replace_cases hlines with ⟨disk, handle, hreplace, hsound, -⟩ | ⟨fault, hreplace⟩
    · rw [hreplace]
      exact hsound
    · rw [hreplace]
      exact h
  replace_cases := by
    intro directory journal lines h hlines written hwritten
    rcases h.replace_cases hlines with ⟨disk, handle, hreplace, -, hcontent⟩ | ⟨fault, hreplace⟩
    · obtain rfl := hreplace.symm.trans hwritten
      left
      refine ⟨rfl, fun hne => hne rfl, ?_⟩
      exact (congrArg Text.readLines hcontent).trans (Text.readLines_writeLines hlines)
    · obtain rfl := hreplace.symm.trans hwritten
      right
      exact ⟨fault, rfl, .rfl, rfl⟩
  not_stuck_of_clean h hne := hne h.1
  clean_append h hclean := h.clean_append hclean _
  clean_replace := by
    intro directory journal lines h hlines hclean
    change (journal.replace lines).state.Clean
    rcases h.replace_cases hlines with ⟨disk, handle, hreplace, -, -⟩ | ⟨fault, hreplace⟩
    · rw [hreplace]
      exact ⟨rfl, hclean.2⟩
    · rw [hreplace]
      exact hclean

/-- A journal in working order is so for the laws of journals. -/
theorem Sound.lawful {directory : String} {journal : FileJournal} (h : journal.Sound directory) :
  LawfulJournal.Sound directory journal
  := h

/-- The device will fail in the next append. -/
instance : HazardousJournal FileJournal where
  Hazard := ShortWrite
  befall journal fault := { journal with fault := some fault }
  Mild fault := fault.stuck = false
  sound_befall fault h := h.of_same _ (some fault)
  stuck_befall _ := .rfl
  held_befall _ := rfl
  clean_befall := by
    rintro journal fault ⟨hremnant, -⟩ hmild
    refine ⟨hremnant, ?_⟩
    rintro _ ⟨⟩
    exact hmild

/-! ### Opening -/

/-- The journal as it is when it is opened anew. -/
def fresh (journal : FileJournal) : FileJournal :=
  { journal with remnant := none, fault := none, mishap := none }

/-- A journal in working order that is opened anew is in working order. -/
theorem Sound.reopened {directory : String} {journal : FileJournal} (h : journal.Sound directory) :
  journal.fresh.Sound directory
  := (h.linked.of_same none none none).sound h.terminable rfl

/-- Opening a linked journal anew changes nothing on the disk. -/
theorem Linked.open_eq {directory : String} {journal : FileJournal} (h : journal.Linked directory) :
  FileJournal.open journal.disk directory = (.ok journal.fresh, journal.disk)
  := by
  have hmade := Disk.makeTree_of_isDirectory h.pathOf_directory
    (Disk.isDirectory_iff.2 ⟨_, h.walk, h.isDirectory⟩)
  obtain ⟨path, hpath⟩ := h.pathOf_path
  rw [h.path] at hpath
  have hopened : journal.disk.openFile (journal.directory ++ [logFileName])
      = .ok (journal.handle, journal.disk) := Disk.openFile_of_file h.entry
  unfold FileJournal.open
  simp only [hmade, hpath, h.walk, hopened, bind, Except.bind, pure, Except.pure]
  rw [fresh, h.path]

/-- Opening a journal in working order anew changes nothing on the disk. -/
theorem Sound.open_eq {directory : String} {journal : FileJournal} (h : journal.Sound directory) :
  FileJournal.open journal.disk directory = (.ok journal.fresh, journal.disk)
  := h.linked.open_eq

/-- A journal that was opened is linked, whatever its file holds. -/
theorem linked_of_open {disk after : Disk} (hwf : disk.WellFormed) {directory : String}
    {journal : FileJournal} (h : FileJournal.open disk directory = (.ok journal, after)) :
  journal.Linked directory ∧ journal.fresh = journal
  := by
  unfold FileJournal.open at h
  split at h
  · cases h
  next made hmade =>
  obtain ⟨hdirectory, hgrows, hmade⟩ := Disk.makeTree_ok hwf.here hmade
  simp only at h
  split at h
  · cases h
  next _ location handle opened hopened =>
  rcases hpath : Disk.pathOf (Path.join directory logFileName) with cause | path
  · rw [hpath] at hopened
    cases hopened
  rcases hwalk : made.walk (Path.ofText directory) with cause | location'
  · rw [hpath, hwalk] at hopened
    cases hopened
  rcases hfile : made.openFile (location' ++ [logFileName]) with cause | ⟨number, made'⟩
  · rw [hpath, hwalk] at hopened
    simp only [bind, Except.bind, hfile] at hopened
    cases hopened
  rw [hpath, hwalk] at hopened
  simp only [bind, Except.bind, hfile, pure, Except.pure] at hopened
  cases hopened
  cases h
  have hnew := (hgrows.wellFormed hwf).openFile hfile
  refine ⟨⟨hnew.wellFormed, hdirectory, rfl, ⟨path, hpath⟩, hnew.keeps.walk hwalk, ?_,
    hnew.entry⟩, rfl⟩
  obtain ⟨location', hwalk', hentry⟩ := Disk.isDirectory_iff.1 hmade
  obtain rfl := Except.ok.inj (hwalk.symm.trans hwalk')
  exact hnew.keeps.directory hentry

/-- A journal that was opened is in working order, if its file can be continued. -/
theorem sound_of_open {disk after : Disk} (hwf : disk.WellFormed) {directory : String}
    {journal : FileJournal} (h : FileJournal.open disk directory = (.ok journal, after))
    (hterminable : Text.Terminable journal.content) :
  journal.Sound directory ∧ journal.fresh = journal
  := by
  obtain ⟨hlinked, hfresh⟩ := linked_of_open hwf h
  refine ⟨hlinked.sound hterminable ?_, hfresh⟩
  rw [← hfresh]
  rfl

/-! ### Journals with given lines -/

/-- The journal in the root directory of a disk on which there is only its file, which holds
the given lines. -/
def holding (lines : List String) : FileJournal where
  disk := (({} : Disk).create [logFileName]).edit 0 (Text.writeLines lines)
  path := Path.join "." logFileName
  directory := []
  handle := 0

section

variable {lines : List String} (hlines : ∀ line ∈ lines, Text.Unbroken line)

include hlines

/-- A journal with given lines is in working order. -/
theorem sound_holding :
  (holding lines).Sound "."
  where
  wellFormed := (Disk.wellFormed_empty.create rfl).edit _ _
  pathOf_directory := rfl
  path := rfl
  pathOf_path := by
    use Path.ofText (Path.join "." logFileName)
    change Disk.pathOf (Path.join "." logFileName) = _
    rfl
  walk := rfl
  isDirectory := rfl
  entry := rfl
  terminable hlast :=
    Text.carriageReturn_not_mem_writeLines hlines (List.mem_of_getLast? hlast)
  calm := rfl

/-- Opening a journal with given lines anew changes nothing. -/
theorem open_holding :
  FileJournal.open (holding lines).disk "." = (.ok (holding lines), (holding lines).disk)
  := (sound_holding hlines).open_eq

end

end FileJournal

end IslandPlots
