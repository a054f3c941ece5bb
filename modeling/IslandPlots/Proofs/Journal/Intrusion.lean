import IslandPlots.Proofs.Journal.Extension

/-!
# Files that others remove

Another program may do more to the log than add to it: it may cut the file, remove it, or put
another one in its place.  A journal then goes on to write to the file that was opened, while
reading goes by name.  The two are the same exactly as long as nobody has removed the file since it
was opened or last replaced (`FileJournal.Exposed.Tracked`).  So lines whose append was acknowledged
are read back in this case, and in the other they are lost (`FileJournal.append_read_back`).
-/

namespace IslandPlots

namespace FileJournal

/-! ### Journals with a directory -/

namespace Based

variable {directory : String} {journal : FileJournal} (h : journal.Based directory)

include h

/-- Remnants and pending failures do not matter to the directory. -/
theorem of_same (remnant : Option Remnant) (fault : Option ShortWrite) (mishap : Option Mishap) :
  { journal with remnant := remnant, fault := fault, mishap := mishap }.Based directory
  := ⟨h.wellFormed, h.pathOf_directory, h.path, h.pathOf_path, h.walk, h.isDirectory, h.entry,
    h.handle_lt⟩

/-- The directory is there also on another disk that has it. -/
theorem of_keeps
    {disk : Disk} (hwf : disk.WellFormed) (hkeeps : journal.disk.Keeps disk)
    (hentry : disk.entry? journal.place ≠ some .directory)
    (hlength : journal.disk.contents.length ≤ disk.contents.length) :
  { journal with disk := disk }.Based directory
  := ⟨hwf, h.pathOf_directory, h.path, h.pathOf_path, hkeeps.walk h.walk,
    hkeeps.directory h.isDirectory, hentry, Nat.lt_of_lt_of_le h.handle_lt hlength⟩

/-- The directory is there also when the content of a file is replaced. -/
theorem edit (number : Nat) (bytes : Text.Bytes) :
  { journal with disk := journal.disk.edit number bytes }.Based directory
  := by
  apply h.of_keeps (h.wellFormed.edit _ _) (journal.disk.keeps_edit number bytes)
  · simpa using h.entry
  · exact Nat.le_of_eq List.length_set.symm

/-- The file under the name of the log can be read, and a missing one has no lines. -/
theorem exists_lines :
  ∃ old, journal.lines = .ok old
  := by
  unfold lines readFile Disk.read
  rcases hentry : journal.disk.entry? journal.place with _ | _ | number
  · exact ⟨_, rfl⟩
  · exact absurd hentry h.entry
  · exact ⟨_, rfl⟩

/-- The look at the last byte succeeds if and only if the open file is empty or the file under the
name of the log is at least as long. -/
theorem isOk_isTorn :
  journal.isTorn.isOk ↔ journal.content = []
    ∨ ∃ number, journal.disk.entry? journal.place = some (.file number)
      ∧ journal.content.length ≤ (journal.disk.content number).length
  := by
  unfold isTorn
  rcases hcontent : journal.content with _ | ⟨first, rest⟩
  · exact iff_of_true rfl (.inl rfl)
  · unfold Disk.read
    rcases hentry : journal.disk.entry? journal.place with _ | _ | number
    · exact iff_of_false nofun (by rintro (⟨⟨⟩⟩ | ⟨_, ⟨⟩, -⟩))
    · exact absurd hentry h.entry
    · simp only [List.length_cons]
      rcases hbyte : (journal.disk.content number)[rest.length]? with _ | byte
      · have hshort := List.getElem?_eq_none_iff.1 hbyte
        apply iff_of_false nofun
        rintro (⟨⟨⟩⟩ | ⟨_, ⟨⟩, hlong⟩)
        omega
      · obtain ⟨hlong, -⟩ := List.getElem?_eq_some_iff.1 hbyte
        exact iff_of_true rfl (.inr ⟨number, rfl, hlong⟩)

/-- A journal whose name leads to the file that was opened is linked. -/
theorem linked (hentry : journal.disk.entry? journal.place = some (.file journal.handle)) :
  journal.Linked directory
  := ⟨h.wellFormed, h.pathOf_directory, h.path, h.pathOf_path, h.walk, h.isDirectory, hentry⟩

/-- A journal that is opened anew is linked, whatever has become of the file, and the device will
not fail in a replacement. -/
theorem openAnew :
  (journal.openAnew directory).Linked directory ∧ (journal.openAnew directory).mishap = none
  := by
  have hmade := Disk.makeTree_of_isDirectory h.pathOf_directory
    (Disk.isDirectory_iff.2 ⟨_, h.walk, h.isDirectory⟩)
  obtain ⟨path, hpath⟩ := h.pathOf_path
  rw [h.path] at hpath
  obtain ⟨handle, after, hopened⟩ : ∃ handle after,
      journal.disk.openFile (journal.directory ++ [logFileName]) = .ok (handle, after) :=
    Disk.exists_openFile h.entry
  have hopen : ∃ opened, FileJournal.open journal.disk directory = (.ok opened, after) := by
    unfold FileJournal.open
    simp only [hmade, hpath, h.walk, hopened, bind, Except.bind, pure, Except.pure]
    exact ⟨_, rfl⟩
  obtain ⟨opened, hopen⟩ := hopen
  rw [FileJournal.openAnew, hopen]
  obtain ⟨hlinked, hfresh⟩ := linked_of_open h.wellFormed hopen
  exact ⟨hlinked, (congrArg FileJournal.mishap hfresh).symm⟩

end Based

/-! ### What other programs do -/

/-- What another program does to the file that it finds under the name of the log. -/
inductive Intrusion where
  /-- It adds bytes at the end of the file, which is made if it is missing. -/
  | write (bytes : Text.Bytes)
  /-- It cuts the file, or fills it up with zero bytes. -/
  | resize (length : Nat)
  /-- It removes the file. -/
  | remove

/-- Whether an intrusion takes the name of the log away. -/
def Intrusion.removes : Intrusion → Bool
  | .remove => true
  | _ => false

/-- The disk after an intrusion. -/
def Intrusion.onDisk (disk : Disk) (place : Location) : Intrusion → Disk
  | .write bytes =>
    match disk.openFile place with
    | .ok (number, disk) => disk.write number bytes
    | .error _ => disk
  | .resize length =>
    match disk.entry? place with
    | some (.file number) => disk.resize number length
    | _ => disk
  | .remove => disk.unlink place

/-- What happens to a journal, by its own doing or by that of another program. -/
inductive Incident where
  | happening (happening : Happening)
  | intrusion (intrusion : Intrusion)

/-- A journal with the knowledge whether somebody has removed its file since it was opened or last
replaced. -/
structure Exposed where
  journal : FileJournal
  removed : Bool := false

/-- Whether a happening makes the name of the log lead to the file of the journal. -/
def Happening.renews (journal : FileJournal) : Happening → Bool
  | .replace lines => (journal.replace lines).result.isOk
  | .reopen => true
  | _ => false

/-- A journal after an incident. -/
def Exposed.step (directory : String) (exposed : Exposed) : Incident → Exposed
  | .happening happening =>
    { journal := (({ journal := exposed.journal } : Pledge).step directory happening).journal
      removed := !happening.renews exposed.journal && exposed.removed }
  | .intrusion intrusion =>
    let journal := exposed.journal
    { journal := { journal with disk := intrusion.onDisk journal.disk journal.place }
      removed := intrusion.removes || exposed.removed }

/-- A journal after several incidents. -/
def Exposed.run (directory : String) (exposed : Exposed) (incidents : List Incident) : Exposed :=
  incidents.foldl (step directory) exposed

/-! ### The name of the log -/

/-- The name of the log leads to the file of the journal if and only if nobody has removed it, and
the device will not fail in a replacement. -/
structure Exposed.Tracked (directory : String) (exposed : Exposed) : Prop where
  based : exposed.journal.Based directory
  calm : exposed.journal.mishap = none
  removed_iff : exposed.removed = false
    ↔ exposed.journal.disk.entry? exposed.journal.place = some (.file exposed.journal.handle)

namespace Exposed.Tracked

/-- The name of the log leads to the file of a linked journal. -/
theorem of_linked {directory : String} {journal : FileJournal} (h : journal.Linked directory)
    (hcalm : journal.mishap = none) :
  Tracked directory { journal }
  := ⟨h.based, hcalm, iff_of_true rfl h.entry⟩

variable {directory : String} {exposed : Exposed} (h : exposed.Tracked directory)

include h

/-- The name leads where it has led when the content of a file is replaced. -/
theorem edit
    (number : Nat) (bytes : Text.Bytes) (remnant : Option Remnant) (fault : Option ShortWrite) :
  Tracked directory { exposed with
    journal := { exposed.journal with
      disk := exposed.journal.disk.edit number bytes
      remnant := remnant
      fault := fault } }
  := by
  refine ⟨(h.based.edit number bytes).of_same remnant fault _, h.calm, ?_⟩
  change exposed.removed = false
    ↔ Disk.entry? (exposed.journal.disk.edit number bytes) exposed.journal.place = _
  simpa using h.removed_iff

/-- The name leads to the file of the journal as long as nobody removes it, and it does so again
when the file is replaced or the journal is opened anew. -/
theorem happening (happening : Happening) :
  (exposed.step directory (.happening happening)).Tracked directory
  := by
  cases happening with
  | append lines =>
    obtain ⟨bytes, remnant, fault, heq⟩ := exposed.journal.state_append lines
    have hedit := h.edit exposed.journal.handle bytes remnant fault
    rw [← heq] at hedit
    unfold Exposed.step Pledge.step
    cases hresult : (exposed.journal.append lines).result with
    | error fault =>
      simp only [hresult]
      exact hedit
    | ok acknowledged =>
      simp only [hresult]
      exact hedit
  | replace lines =>
    unfold Exposed.step Pledge.step
    rcases h.based.replace_cases h.calm lines with
      ⟨disk, handle, hreplace, hplaced⟩ | ⟨cause, -, hreplace⟩
    · simp only [Happening.renews, hreplace]
      exact of_linked (h.based.linked_of_placed hplaced none _) h.calm
    · simp only [Happening.renews, hreplace]
      exact h
  | write number bytes =>
    exact h.edit number _ exposed.journal.remnant exposed.journal.fault
  | fault fault =>
    exact ⟨h.based.of_same _ (some fault) _, h.calm, h.removed_iff⟩
  | reopen =>
    exact of_linked h.based.openAnew.1 h.based.openAnew.2

/-- A name that is removed leads nowhere, and a file that is made under it is not the one that was
opened. -/
theorem intrusion (intrusion : Intrusion) :
  (exposed.step directory (.intrusion intrusion)).Tracked directory
  := by
  have hbased := h.based
  unfold Exposed.step Intrusion.onDisk
  cases intrusion with
  | write bytes =>
    obtain ⟨number, opened, hopen⟩ := Disk.exists_openFile hbased.entry
    have hopened := hbased.wellFormed.openFile hopen
    have hnew : Tracked directory { exposed with
        journal := { exposed.journal with disk := opened } } := by
      refine ⟨hbased.of_keeps hopened.wellFormed hopened.keeps ?_
        (Disk.length_le_of_openFile hopen), h.calm, h.removed_iff.trans ?_⟩
      · rw [hopened.entry]
        nofun
      · exact (Disk.entry?_openFile_iff hopen hbased.handle_lt).symm
    simp only [hopen]
    exact hnew.edit number _ exposed.journal.remnant exposed.journal.fault
  | resize length =>
    rcases hentry : exposed.journal.disk.entry? exposed.journal.place with _ | _ | number
    · simp only [hentry]
      exact h
    · exact absurd hentry hbased.entry
    · simp only [hentry]
      exact h.edit number _ exposed.journal.remnant exposed.journal.fault
  | remove =>
    obtain ⟨hwf, hkeeps⟩ := hbased.wellFormed.unlink exposed.journal.place
    have hgone := Disk.entry?_unlink hbased.entry
    refine ⟨hbased.of_keeps hwf hkeeps ?_ ?_, h.calm, iff_of_false nofun ?_⟩
    · rw [hgone]
      nofun
    · exact Nat.le_of_eq (congrArg List.length (Disk.contents_unlink ..)).symm
    · change Disk.entry? (exposed.journal.disk.unlink exposed.journal.place)
        exposed.journal.place ≠ _
      rw [hgone]
      nofun

/-- The name of the log is tracked in a run. -/
theorem run (incidents : List Incident) :
  (exposed.run directory incidents).Tracked directory
  := by
  induction incidents generalizing exposed with
  | nil => exact h
  | cons incident incidents ih =>
    apply ih
    cases incident with
    | happening happening => exact h.happening happening
    | intrusion intrusion => exact h.intrusion intrusion

end Exposed.Tracked

/-! ### Reading back -/

/-- Lines whose append was acknowledged stand at the end of a linked journal. -/
theorem Linked.exists_lines_append
    {directory : String} {journal : FileJournal} (h : journal.Linked directory)
    {lines : List String} (hlines : ∀ line ∈ lines, Text.Unbroken line)
    (hresult : (journal.append lines).result = .ok ()) :
  ∃ front, (journal.append lines).state.lines = .ok (front ++ lines)
  := by
  have hfinished := Text.isUnfinished_append_ending journal.content
  use Text.readLines (journal.content ++ Text.ending journal.content)
  rw [h.lines_append hresult, newBytes, ← List.append_assoc,
    Text.readLines_append_of_finished hfinished, Text.readLines_writeLines hlines]

/-- The lines are those of the bytes that are read. -/
theorem readFile_congr
    {disk other : Disk} {place : Location} (h : disk.read place = other.read place)
    (path : String) :
  readFile disk path place = readFile other path place
  := by
  unfold readFile
  rw [h]

/-- An append to a file that has lost its name changes nothing in what is read. -/
theorem lines_append_of_removed
    {journal : FileJournal} (h : journal.disk.entry? journal.place ≠ some (.file journal.handle))
    (lines : List String) :
  (journal.append lines).state.lines = journal.lines
  := by
  obtain ⟨bytes, remnant, fault, heq⟩ := journal.state_append lines
  rw [heq]
  exact readFile_congr (Disk.read_edit_of_ne h bytes) journal.path

/-- Acknowledged lines are read back as long as nobody removes the file.  Whatever the file holds
when the journal is opened, whatever the journal does then, and whatever other programs do to the
file under the name of the log between two calls: when lines are appended and the append is
acknowledged, the journal can be read before and after it.  What is read then ends with just these
lines if and only if nobody has removed the file since it was opened or last replaced, or they stood
at the end before; and if somebody has removed it, then the same is read as before, whether another
file has been put in its place or not.

An append is acknowledged if and only if nothing is left of an earlier one, the device does not
fail, and the open file is empty or there is a file under the name of the log that is at least as
long.  So a journal notices that its file was removed only while it is not empty and a shorter file
or none is in its place. -/
theorem append_read_back
    {disk after : Disk} (hwf : disk.WellFormed) {directory : String} {opened : FileJournal}
    (hopen : FileJournal.open disk directory = (.ok opened, after)) (incidents : List Incident)
    {lines : List String} (hlines : ∀ line ∈ lines, Text.Unbroken line) :
  let exposed := ({ journal := opened } : Exposed).run directory incidents
  let journal := exposed.journal
  let written := journal.append lines
  (written.result = .ok () → ∃ old new, journal.lines = .ok old ∧ written.state.lines = .ok new
      ∧ (lines <:+ new ↔ exposed.removed = false ∨ lines <:+ old)
      ∧ (exposed.removed = true → new = old))
    ∧ (written.result = .ok () ↔ journal.remnant = none ∧ journal.fault = none
      ∧ (journal.content = []
        ∨ ∃ number, journal.disk.entry? journal.place = some (.file number)
          ∧ journal.content.length ≤ (journal.disk.content number).length))
  := by
  intro exposed journal written
  have hopened := Pledge.kept_of_open hwf hopen
  have htracked : exposed.Tracked directory :=
    (Exposed.Tracked.of_linked hopened.linked hopened.calm).run incidents
  refine ⟨fun hresult => ?_, ?_⟩
  · obtain ⟨old, hold⟩ := htracked.based.exists_lines
    cases hremoved : exposed.removed with
    | false =>
      have hlinked := htracked.based.linked (htracked.removed_iff.1 hremoved)
      obtain ⟨front, hnew⟩ := hlinked.exists_lines_append hlines hresult
      refine ⟨old, front ++ lines, hold, hnew, ?_, nofun⟩
      exact iff_of_true (List.suffix_append front lines) (.inl rfl)
    | true =>
      have hentry := mt htracked.removed_iff.2 (by rw [hremoved]; nofun)
      have hnew := (lines_append_of_removed hentry lines).trans hold
      exact ⟨old, old, hold, hnew, by simp, fun _ => rfl⟩
  · rw [← htracked.based.isOk_isTorn]
    apply result_append_iff

/-- A record is read back after another program has removed the file and made another one, the
journal has been opened anew, and its new file has been cut within a character. -/
theorem append_read_back_reopened :
  let opened := holding ["1;10;0;ASSIGN;ann"]
  let incidents : List Incident := [.intrusion .remove,
    .intrusion (.write [0x32, 0x3B, 0xC3, 0xA9]), .happening .reopen, .intrusion (.resize 3)]
  let lines := ["3;20;0;ASSIGN;bob"]
  let exposed := ({ journal := opened } : Exposed).run "." incidents
  FileJournal.open opened.disk "." = (.ok opened, opened.disk)
    ∧ exposed.removed = false
    ∧ (exposed.journal.append lines).result = .ok ()
    ∧ ∃ new, (exposed.journal.append lines).state.lines = .ok new ∧ lines <:+ new
  := by
  intro opened incidents lines exposed
  have hsound : opened.Sound "." := sound_holding (by decide +kernel)
  have hremoved : exposed.removed = false := rfl
  have hresult : (exposed.journal.append lines).result = .ok () := by
    rw [result_append_iff]
    decide +kernel
  have hlines : ∀ line ∈ lines, Text.Unbroken line := by
    decide +kernel
  obtain ⟨hread, -⟩ := append_read_back hsound.wellFormed hsound.open_eq incidents hlines
  obtain ⟨old, new, -, hnew, hsuffix, -⟩ := hread hresult
  exact ⟨hsound.open_eq, hremoved, hresult, new, hnew, hsuffix.2 (.inl hremoved)⟩

/-- Appends are acknowledged although nothing of them is read: when the file that was opened is
empty and has been removed, and when it has been removed and there is another one that is at least
as long. -/
theorem append_into_removed :
  let fresh := ({ journal := holding [] } : Exposed).run "." [.intrusion .remove]
  let other := ({ journal := holding ["1;10;0;ASSIGN;ann"] } : Exposed).run "."
    [.intrusion .remove, .intrusion (.write (Text.writeLines ["2;0;10;ASSIGN;eve"]))]
  let lines := ["3;20;0;ASSIGN;bob"]
  (∀ line ∈ lines, Text.Unbroken line)
    ∧ (fresh.journal.append lines).result = .ok ()
    ∧ (fresh.journal.append lines).state.lines = .ok []
    ∧ (other.journal.append lines).result = .ok ()
    ∧ (other.journal.append lines).state.lines = .ok ["2;0;10;ASSIGN;eve"]
  := by
  intro fresh other lines
  have hfresh : (fresh.journal.append lines).result = .ok () := by
    rw [result_append_iff]
    decide +kernel
  have hother : (other.journal.append lines).result = .ok () := by
    rw [result_append_iff]
    decide +kernel
  refine ⟨by decide +kernel, hfresh, ?_, hother, ?_⟩
  · exact lines_append_of_removed (by decide +kernel) lines
  · apply (lines_append_of_removed (by decide +kernel) lines).trans
    exact congrArg Except.ok (Text.readLines_writeLines (by decide +kernel))

end FileJournal

end IslandPlots
