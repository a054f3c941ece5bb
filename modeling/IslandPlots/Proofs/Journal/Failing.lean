import IslandPlots.Journal.File
import IslandPlots.Journal.Memory
import IslandPlots.Proofs.Disk.Files

/-!
# Failed writes

A write that fails leaves the journal as it was, up to the failure of the device that it has
met, unless something remains of it: bytes that could not be cut off, the draft of a replacement,
or a replacement that was put in its place but not opened there.  For this a journal need not be
in working order, so the bytes of its file may be any, and other programs may have done what they
like.  All the ways in which a replacement can end are those of `FileJournal.Replacement`.
-/

namespace IslandPlots

/-- A journal in which a failed write that leaves no remains has done nothing. -/
class RestoredJournal (J : Type) [Journal J] where
  /-- What a journal has stored. -/
  Stored : Type
  /-- Everything that the journal has stored. -/
  stored : J → Stored
  /-- The device fails in the next append. -/
  Pending : J → Prop
  /-- The journal whose device does not fail in the next append. -/
  calmed : J → J
  /-- A write that failed with a fault has left something in the journal. -/
  Remains : JournalFault → J → Prop
  stored_calmed : ∀ {journal : J}, stored (calmed journal) = stored journal
  lines_calmed : ∀ {journal : J}, Journal.lines (calmed journal) = Journal.lines journal
  append_error : ∀ {journal : J} {lines : List String} {fault : JournalFault},
    (Journal.append journal lines).result = .error fault →
    ¬ Remains fault (Journal.append journal lines).state →
      (Journal.append journal lines).state = journal
        ∨ Pending journal ∧ (Journal.append journal lines).state = calmed journal
  replace_error : ∀ {journal : J} {lines : List String} {fault : JournalFault},
    (Journal.replace journal lines).result = .error fault →
    ¬ Remains fault (Journal.replace journal lines).state →
      (Journal.replace journal lines).state = journal

/-- A journal in memory refuses and stays as it is. -/
instance : RestoredJournal MemoryJournal where
  Stored := List String
  stored := MemoryJournal.lines
  Pending _ := False
  calmed := id
  Remains _ _ := False
  stored_calmed := rfl
  lines_calmed := rfl
  append_error := by
    rintro ⟨lines, _ | _⟩ new fault herror -
    · cases herror
    · exact .inl rfl
  replace_error := by
    rintro ⟨lines, _ | _⟩ new fault herror -
    · cases herror
    · rfl

/-- The fault of a replacement that has put the new log in the place of the old one. -/
def JournalFault.Displaced : JournalFault → Prop
  | .syncDirectory .. | .openReplaced .. => True
  | _ => False

namespace FileJournal

/-- The journal whose device does not fail in the next append. -/
def calmed (journal : FileJournal) : FileJournal :=
  { journal with fault := none }

/-- What remains of a failed write: the bytes of an append that could not be cut off, or the
file of a replacement, under the name of the draft or in the place of the log. -/
def Remains : JournalFault → FileJournal → Prop
  | .device .., journal => journal.remnant ≠ none
  | .writeDraft .., _ | .syncDraft .., _ | .renameDraft .., _ => True
  | .syncDirectory .., _ | .openReplaced .., _ => True
  | _, _ => False

/-- An append is refused, or it writes its bytes at the end of the file. -/
theorem append_eq_writeBytes
    (journal : FileJournal) (lines : List String) :
  (∃ fault, journal.append lines = .fail fault journal)
    ∨ ∃ torn, journal.append lines = journal.writeBytes (appendBytes torn lines)
  := by
  unfold append
  rcases journal.remnant with _ | remnant
  · rcases journal.isTorn with fault | torn
    · exact .inl ⟨fault, rfl⟩
    · exact .inr ⟨torn, rfl⟩
  · exact .inl ⟨.unusable journal.path remnant, rfl⟩

/-- An append changes no more than the content of the open file, what remains in it and the
pending fault. -/
theorem state_append
    (journal : FileJournal) (lines : List String) :
  ∃ bytes remnant fault, (journal.append lines).state
    = { journal with
        disk := journal.disk.edit journal.handle bytes
        remnant := remnant
        fault := fault }
  := by
  have hsame := journal.disk.edit_content journal.handle
  rcases journal.append_eq_writeBytes lines with ⟨fault, heq⟩ | ⟨torn, heq⟩
  · rw [heq]
    use journal.content, journal.remnant, journal.fault
    rw [content, hsame]
    rfl
  · rw [heq]
    unfold writeBytes
    rcases hfault : journal.fault with _ | ⟨keep, _ | _⟩
    · exact ⟨_, journal.remnant, none, rfl⟩
    · use journal.content, journal.remnant, none
      simp only [Bool.false_eq_true, if_false]
      simp [content, hsame]
    · exact ⟨_, _, none, rfl⟩

/-- An append does not meet a failure that a replacement is to meet. -/
theorem mishap_append
    (journal : FileJournal) (lines : List String) :
  (journal.append lines).state.mishap = journal.mishap
  := by
  obtain ⟨bytes, remnant, fault, heq⟩ := journal.state_append lines
  rw [heq]

/-- A short write that is cut back has changed no byte, whichever part was stored and whatever
stood in the file before. -/
theorem writeBytes_error
    {journal : FileJournal} {bytes : Text.Bytes} {fault : JournalFault}
    (h : (journal.writeBytes bytes).result = .error fault)
    (hremains : ¬ Remains fault (journal.writeBytes bytes).state) :
  journal.fault ≠ none ∧ (journal.writeBytes bytes).state = journal.calmed
  := by
  unfold writeBytes at h hremains ⊢
  rcases hfault : journal.fault with _ | ⟨keep, _ | _⟩
  · rw [hfault] at h
    cases h
  · refine ⟨nofun, ?_⟩
    simp only [Bool.false_eq_true, if_false]
    simp [FileJournal.content, calmed]
  · rw [hfault] at h hremains
    simp only [if_true] at h hremains
    cases h
    exact absurd nofun hremains

/-- An append that fails and leaves no remains has changed nothing but that the device need not
fail again. -/
theorem append_error
    {journal : FileJournal} {lines : List String} {fault : JournalFault}
    (h : (journal.append lines).result = .error fault)
    (hremains : ¬ Remains fault (journal.append lines).state) :
  (journal.append lines).state = journal
    ∨ journal.fault ≠ none ∧ (journal.append lines).state = journal.calmed
  := by
  rcases journal.append_eq_writeBytes lines with ⟨refusal, heq⟩ | ⟨torn, heq⟩
  · left
    rw [heq]
    rfl
  · right
    rw [heq] at h hremains ⊢
    exact writeBytes_error h hremains

/-- The log does not lie at the root. -/
theorem place_ne_nil (journal : FileJournal) :
  journal.place ≠ []
  := List.append_ne_nil_of_right_ne_nil _ (List.cons_ne_nil _ _)

/-- The draft of a replacement does not lie at the root. -/
theorem draftPlace_ne_nil (journal : FileJournal) :
  journal.draftPlace ≠ []
  := List.append_ne_nil_of_right_ne_nil _ (List.cons_ne_nil _ _)

/-- The log and the draft of a replacement have different locations. -/
theorem draftPlace_ne_place (journal : FileJournal) :
  journal.draftPlace ≠ journal.place
  := by
  intro h
  have := List.append_cancel_left h
  revert this
  decide

/-- A replacement that could be put in its place can be opened there. -/
theorem openFile_of_rename
    {journal : FileJournal} {bytes : Text.Bytes} {drafted renamed : Disk}
    (hstore : journal.disk.store journal.draftPlace bytes = .ok drafted)
    (hrename : drafted.rename journal.draftPlace journal.place = .ok renamed) :
  ∃ number, renamed.openFile journal.place = .ok (number, renamed)
  := by
  obtain ⟨number, hentry⟩ := Disk.entry?_of_store hstore
  use number
  apply Disk.openFile_of_file
  rw [Disk.entry?_of_rename journal.draftPlace_ne_nil journal.place_ne_nil hrename, if_pos rfl,
    hentry]

/-- A replacement that is prepared is stored under the name of the draft. -/
theorem store_of_draft
    {journal : FileJournal} {bytes : Text.Bytes} {drafted : Disk}
    (h : journal.draft bytes = .ok drafted) :
  journal.disk.store journal.draftPlace bytes = .ok drafted
  := by
  unfold draft at h
  rcases hpath : Disk.pathOf journal.draftPath with cause | path
  · rw [hpath] at h
    cases h
  · rw [hpath] at h
    exact h

/-- What stands on the disk when the draft with the content `bytes` has been given the name of the
log. -/
structure Placed (journal : FileJournal) (bytes : Text.Bytes) (number : Nat) (after : Disk) : Prop
    where
  wellFormed : after.WellFormed
  keeps : journal.disk.Keeps after
  entry : after.entry? journal.place = some (.file number)
  content : after.content number = bytes
  draft : after.entry? journal.draftPlace = none
  elsewhere : ∀ location, location ≠ journal.place → location ≠ journal.draftPlace →
    after.read location = journal.disk.read location
  length_le : journal.disk.contents.length ≤ after.contents.length
  /-- A file that had no name gets none, and the file of the log loses its name. -/
  nameless : ∀ old < journal.disk.contents.length,
    (∀ location, journal.disk.entry? location = some (.file old) → location = journal.place) →
      ∀ location, after.entry? location ≠ some (.file old)

/-- What is in the place of the log is read there. -/
theorem Placed.read
    {journal : FileJournal} {bytes : Text.Bytes} {number : Nat} {after : Disk}
    (h : journal.Placed bytes number after) :
  after.read journal.place = .ok bytes
  := by
  unfold Disk.read
  rw [h.entry]
  exact congrArg Except.ok h.content

/-- A draft that has been given the name of the log is in its place. -/
theorem placed_of_rename
    {journal : FileJournal} (h : journal.disk.WellFormed) {bytes : Text.Bytes}
    {drafted renamed : Disk} (hdraft : journal.draft bytes = .ok drafted)
    (hrename : drafted.rename journal.draftPlace journal.place = .ok renamed) :
  ∃ number, journal.Placed bytes number renamed
  := by
  obtain ⟨number, hstored⟩ := h.store (store_of_draft hdraft)
  have hentry := Disk.entry?_of_rename journal.draftPlace_ne_nil journal.place_ne_nil hrename
  have hcontents := Disk.contents_of_rename hrename
  have hplace : drafted.entry? journal.place ≠ some .directory := by
    intro hdirectory
    unfold Disk.rename at hrename
    rw [hstored.entry, hdirectory] at hrename
    cases hrename
  obtain ⟨after, hafter, hwf, hkeeps, hfile, -⟩ := hstored.wellFormed.rename hstored.entry hplace
  obtain rfl : renamed = after := Except.ok.inj (hrename.symm.trans hafter)
  refine ⟨number, hwf, ⟨hkeeps.here.trans hstored.keeps.here, fun hold =>
    hkeeps.directory (hstored.keeps.directory hold)⟩, hfile, ?_, ?_, ?_, ?_, ?_⟩
  · rw [Disk.content, hcontents]
    exact hstored.content
  · rw [hentry, if_neg journal.draftPlace_ne_place, if_pos rfl]
  · intro location hne hne'
    rw [Disk.read_of_rename journal.draftPlace_ne_nil journal.place_ne_nil hrename hne' hne]
    exact hstored.read_of_ne h hne'
  · rw [hcontents]
    exact hstored.length_le
  · intro old hold hnames
    by_cases hlog : drafted.entry? journal.place = some (.file old)
    · exact hstored.wellFormed.entry?_ne_of_rename journal.draftPlace_ne_nil journal.place_ne_nil
        hrename journal.draftPlace_ne_place hlog
    · apply Disk.entry?_ne_of_rename journal.draftPlace_ne_nil journal.place_ne_nil hrename
      intro location hlocation
      obtain rfl := hnames location ((hstored.entry?_iff hold location).1 hlocation)
      exact hlog hlocation

/-- How a replacement by the content `bytes` ends. -/
inductive Replacement (journal : FileJournal) (bytes : Text.Bytes) :
    Outcome JournalFault FileJournal Unit → Prop where
  /-- No draft can be made. -/
  | refused {cause : DiskError} (hdraft : journal.draft (journal.draftBytes bytes) = .error cause) :
    Replacement journal bytes (.fail (.makeDraft journal.draftPath cause) journal)
  /-- The device fails before the draft is renamed. -/
  | spoiled {drafted : Disk} {fault : JournalFault}
    (hdraft : journal.draft (journal.draftBytes bytes) = .ok drafted)
    (hfault : journal.earlyFault? bytes = some fault) :
    Replacement journal bytes (.fail fault { journal with disk := drafted, mishap := none })
  /-- The draft cannot be put in the place of the log. -/
  | misplaced {drafted : Disk} {cause : DiskError} (hdraft : journal.draft bytes = .ok drafted)
    (hrename : drafted.rename journal.draftPlace journal.place = .error cause) :
    Replacement journal bytes
      (.fail (.renameDraft journal.path cause) { journal with disk := drafted })
  /-- The device fails after the draft has been renamed. -/
  | detached {drafted renamed : Disk} {fault : JournalFault}
    (hdraft : journal.draft bytes = .ok drafted)
    (hrename : drafted.rename journal.draftPlace journal.place = .ok renamed)
    (hfault : journal.lateFault? = some fault) :
    Replacement journal bytes (.fail fault { journal with disk := renamed, mishap := none })
  /-- The draft is in the place of the log and open. -/
  | done {drafted renamed : Disk} {number : Nat} (hdraft : journal.draft bytes = .ok drafted)
    (hrename : drafted.rename journal.draftPlace journal.place = .ok renamed)
    (hopen : renamed.openFile journal.place = .ok (number, renamed)) :
    Replacement journal bytes
      (.ok () { journal with disk := renamed, handle := number, remnant := none })

/-- The device stores the whole draft unless it fails. -/
theorem draftBytes_of_earlyFault?_eq_none
    {journal : FileJournal} {bytes : Text.Bytes} (h : journal.earlyFault? bytes = none) :
  journal.draftBytes bytes = bytes
  := by
  unfold earlyFault? at h
  unfold draftBytes
  rcases hmishap : journal.mishap with _ | ⟨room, cause⟩ | cause | cause | cause
  · rfl
  · have hroom : ¬ room < bytes.length := by simpa [hmishap] using h
    exact List.take_of_length_le (Nat.le_of_not_lt hroom)
  · rfl
  · rfl
  · rfl

section

variable {journal : FileJournal} (h : journal.mishap = none)

include h

/-- No draft is spoiled unless the device is to fail. -/
theorem earlyFault?_of_mishap (bytes : Text.Bytes) :
  journal.earlyFault? bytes = none
  := by
  unfold earlyFault?
  rw [h]

/-- No log is detached unless the device is to fail. -/
theorem lateFault?_of_mishap :
  journal.lateFault? = none
  := by
  unfold lateFault?
  rw [h]

/-- A replacement when the device is not to fail. -/
theorem replace_of_mishap (lines : List String) :
  journal.replace lines = match journal.draft (Text.writeLines lines) with
    | .error cause => .fail (.makeDraft journal.draftPath cause) journal
    | .ok disk =>
      match disk.rename journal.draftPlace journal.place with
      | .error cause => .fail (.renameDraft journal.path cause) { journal with disk := disk }
      | .ok disk =>
        match disk.openFile journal.place with
        | .error cause => .fail (.openLog journal.path cause) { journal with disk := disk }
        | .ok (handle, disk) =>
          .ok () { journal with disk := disk, handle := handle, remnant := none }
  := by
  have hcalm : ∀ disk, ({ journal with disk := disk } : FileJournal).lateFault? = none :=
    fun disk => lateFault?_of_mishap h
  unfold replace prepare
  rw [earlyFault?_of_mishap h, draftBytes_of_earlyFault?_eq_none (earlyFault?_of_mishap h _)]
  rcases journal.draft (Text.writeLines lines) with cause | drafted
  · rfl
  · simp only [Outcome.ok, putInPlace, hcalm]
    rfl

end

section

variable {journal : FileJournal}

/-- A draft that cannot be renamed stays. -/
theorem putInPlace_of_misplaced
    {cause : DiskError} (h : journal.disk.rename journal.draftPlace journal.place = .error cause) :
  journal.putInPlace = .fail (.renameDraft journal.path cause) journal
  := by
  unfold putInPlace
  rw [h]

variable {renamed : Disk} (h : journal.disk.rename journal.draftPlace journal.place = .ok renamed)

include h

/-- The log is replaced also when the device fails afterwards. -/
theorem putInPlace_of_detached {fault : JournalFault} (hfault : journal.lateFault? = some fault) :
  journal.putInPlace = .fail fault { journal with disk := renamed, mishap := none }
  := by
  unfold putInPlace
  rw [h]
  dsimp only
  rw [hfault]

/-- The log that has been replaced is opened. -/
theorem putInPlace_of_done
    (hcalm : journal.lateFault? = none) {number : Nat}
    (hopen : renamed.openFile journal.place = .ok (number, renamed)) :
  journal.putInPlace = .ok () { journal with disk := renamed, handle := number, remnant := none }
  := by
  unfold putInPlace
  rw [h]
  dsimp only
  rw [hcalm]
  dsimp only
  rw [hopen]

end

/-- Every replacement ends in one of these ways. -/
theorem replacement_replace
    (journal : FileJournal) (lines : List String) :
  journal.Replacement (Text.writeLines lines) (journal.replace lines)
  := by
  unfold replace prepare
  rcases hdraft : journal.draft (journal.draftBytes (Text.writeLines lines)) with cause | drafted
  · exact .refused hdraft
  rcases hearly : journal.earlyFault? (Text.writeLines lines) with _ | fault
  · rw [draftBytes_of_earlyFault?_eq_none hearly] at hdraft
    let drafting : FileJournal := { journal with disk := drafted }
    change journal.Replacement _ drafting.putInPlace
    rcases hrename : drafting.disk.rename drafting.draftPlace drafting.place with cause | renamed
    · rw [putInPlace_of_misplaced hrename]
      exact .misplaced hdraft hrename
    rcases hlate : drafting.lateFault? with _ | fault
    · obtain ⟨number, hopen⟩ := openFile_of_rename (store_of_draft hdraft) hrename
      rw [putInPlace_of_done hrename hlate hopen]
      exact .done hdraft hrename hopen
    · rw [putInPlace_of_detached hrename hlate]
      exact .detached hdraft hrename hlate
  · exact .spoiled hdraft hearly

/-- A draft remains when the device fails before it is renamed. -/
theorem remains_of_earlyFault?
    {journal : FileJournal} {bytes : Text.Bytes} {fault : JournalFault}
    (h : journal.earlyFault? bytes = some fault) (after : FileJournal) :
  Remains fault after
  := by
  unfold earlyFault? at h
  split at h
  · split at h
    · cases h
      trivial
    · cases h
  · cases h
    trivial
  · cases h

/-- The new log is in its place when the device fails after the draft has been renamed. -/
theorem displaced_of_lateFault?
    {journal : FileJournal} {fault : JournalFault} (h : journal.lateFault? = some fault) :
  fault.Displaced
  := by
  unfold lateFault? at h
  split at h
  · simp only at h
    split at h
    · cases h
    · cases h
      trivial
  · cases h
    trivial
  · cases h

/-- The new log remains of a replacement that has put it in its place. -/
theorem remains_of_displaced
    {fault : JournalFault} (h : fault.Displaced) (after : FileJournal) :
  Remains fault after
  := by
  cases fault with
  | syncDirectory | openReplaced => trivial
  | _ => cases h

/-- A replacement that fails and leaves no remains has changed nothing. -/
theorem replace_error
    {journal : FileJournal} {lines : List String} {fault : JournalFault}
    (h : (journal.replace lines).result = .error fault)
    (hremains : ¬ Remains fault (journal.replace lines).state) :
  (journal.replace lines).state = journal
  := by
  have hends := journal.replacement_replace lines
  generalize journal.replace lines = replaced at h hremains hends ⊢
  cases hends with
  | refused hdraft => rfl
  | spoiled hdraft hfault =>
    cases h
    exact absurd (remains_of_earlyFault? hfault _) hremains
  | misplaced hdraft hrename =>
    cases h
    exact absurd trivial hremains
  | detached hdraft hrename hfault =>
    cases h
    exact absurd (remains_of_displaced (displaced_of_lateFault? hfault) _) hremains
  | done hdraft hrename hopen => cases h

/-- A journal in a file loses nothing but the failure of the device that an append has met. -/
instance : RestoredJournal FileJournal where
  Stored := Disk
  stored := disk
  Pending journal := journal.fault ≠ none
  calmed := calmed
  Remains := Remains
  stored_calmed := rfl
  lines_calmed := rfl
  append_error := append_error
  replace_error := replace_error

end FileJournal

end IslandPlots
