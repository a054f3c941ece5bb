import IslandPlots.Proofs.Disk.Entries

/-!
# The files of a disk

What opening, changing and renaming a file do to the entries and to the contents.  All of
them leave a well-formed disk well-formed and its directories in place.
-/

namespace IslandPlots

namespace Disk

/-- Disks with the same tree have the same entries. -/
theorem entry?_congr {disk other : Disk} (h : disk.tree = other.tree) :
  disk.entry? = other.entry?
  := by
  funext location
  cases location with
  | nil => rfl
  | cons name names => exact congrArg (List.lookup (name :: names)) h

/-! ### Changing a content -/

/-- The disk on which the content of a file has been replaced. -/
def edit (disk : Disk) (number : Nat) (bytes : Text.Bytes) : Disk :=
  { disk with contents := disk.contents.set number bytes }

/-- Writing replaces the content by a longer one. -/
theorem write_eq_edit (disk : Disk) (number : Nat) (bytes : Text.Bytes) :
  disk.write number bytes = disk.edit number (disk.content number ++ bytes)
  := rfl

/-- Cutting a file to a length it has had replaces the content by its beginning. -/
theorem resize_eq_edit {disk : Disk} {number length : Nat}
    (h : length ≤ (disk.content number).length) :
  disk.resize number length = disk.edit number ((disk.content number).take length)
  := by
  rw [resize, edit, Nat.sub_eq_zero_of_le h, List.replicate_zero, List.append_nil]

/-- Replacing a content changes no entry. -/
@[simp]
theorem entry?_edit (disk : Disk) (number : Nat) (bytes : Text.Bytes) :
  Disk.entry? (disk.edit number bytes) = disk.entry?
  := entry?_congr rfl

/-- Replacing a content replaces it. -/
@[simp]
theorem content_edit {disk : Disk} {number : Nat} (h : number < disk.contents.length)
    (bytes : Text.Bytes) :
  (disk.edit number bytes).content number = bytes
  := by
  rw [content, edit, List.getD_eq_getElem?_getD, List.getElem?_set_self h]
  rfl

/-- Replacing a content leaves that of the other files. -/
@[simp]
theorem content_edit_of_ne {number other : Nat} (h : number ≠ other) (disk : Disk)
    (bytes : Text.Bytes) :
  (disk.edit number bytes).content other = disk.content other
  := by
  rw [content, content, edit, List.getD_eq_getElem?_getD, List.getD_eq_getElem?_getD,
    List.getElem?_set_ne h]

/-- What is read under a name does not change when the content of another file is replaced. -/
theorem read_edit_of_ne {disk : Disk} {location : Location} {number : Nat}
    (h : disk.entry? location ≠ some (.file number)) (bytes : Text.Bytes) :
  (disk.edit number bytes).read location = disk.read location
  := by
  unfold read
  rw [entry?_edit]
  rcases hentry : disk.entry? location with _ | _ | other
  · rfl
  · rfl
  · have hne : number ≠ other := by
      rintro rfl
      exact h hentry
    simp only [content_edit_of_ne hne]

/-- The last of two replacements counts. -/
@[simp]
theorem edit_edit (disk : Disk) (number : Nat) (bytes bytes' : Text.Bytes) :
  (disk.edit number bytes).edit number bytes' = disk.edit number bytes'
  := by
  rw [edit, edit, edit, List.set_set]

/-- Replacing a content by itself changes nothing, also when there is no such file. -/
@[simp]
theorem edit_content (disk : Disk) (number : Nat) :
  disk.edit number (disk.content number) = disk
  := by
  rw [edit, content, List.getD_eq_getElem?_getD]
  by_cases h : number < disk.contents.length
  · rw [List.getElem?_eq_getElem h, Option.getD_some, List.set_getElem_self]
  · rw [List.set_eq_of_length_le (Nat.le_of_not_lt h)]

/-- Cutting a file back to the length it had undoes a write, also when there is no such
file. -/
@[simp]
theorem resize_write (disk : Disk) (number : Nat) (bytes : Text.Bytes) :
  (disk.write number bytes).resize number (disk.content number).length = disk
  := by
  by_cases h : number < disk.contents.length
  · simp [write_eq_edit, resize_eq_edit, h]
  · rw [write, resize, List.set_set]
    simp only [List.set_eq_of_length_le (Nat.le_of_not_lt h)]

/-- Replacing a content keeps the directories. -/
theorem keeps_edit (disk : Disk) (number : Nat) (bytes : Text.Bytes) :
  Keeps disk (disk.edit number bytes)
  := by
  refine ⟨rfl, fun {location} h => ?_⟩
  simpa using h

/-- Replacing a content leaves a disk well-formed. -/
theorem WellFormed.edit {disk : Disk} (h : disk.WellFormed) (number : Nat) (bytes : Text.Bytes) :
  (disk.edit number bytes).WellFormed
  := by
  constructor
  · rw [entry?_edit]
    exact h.here
  · intro location other hentry
    rw [entry?_edit] at hentry
    rw [Disk.edit, List.length_set]
    exact h.exists_file hentry
  · rw [entry?_edit]
    exact h.unique

/-! ### Opening -/

/-- What opening a file leaves. -/
structure Opened (before : Disk) (location : Location) (number : Nat) (after : Disk) : Prop where
  wellFormed : after.WellFormed
  keeps : Keeps before after
  entry : after.entry? location = some (.file number)
  elsewhere : ∀ other, other ≠ location → after.entry? other = before.entry? other

/-- The disk with a further file, which is empty. -/
def create (disk : Disk) (location : Location) : Disk :=
  { disk.bind location (.file disk.contents.length) with contents := disk.contents ++ [[]] }

/-- The new file is found if there was no entry. -/
@[simp]
theorem entry?_create (disk : Disk) (location other : Location) :
  Disk.entry? (disk.create location) other
    = (disk.entry? other).or
      (if other = location then some (.file disk.contents.length) else none)
  := by
  rw [← entry?_bind]
  exact congrFun (entry?_congr rfl) other

/-- A file is the new one, or it was there. -/
theorem file_of_create {disk : Disk} {location other : Location} {number : Nat}
    (hnone : disk.entry? location = none)
    (h : Disk.entry? (disk.create location) other = some (.file number)) :
  (other = location ∧ number = disk.contents.length)
    ∨ disk.entry? other = some (.file number)
  := by
  rw [entry?_create] at h
  by_cases hsame : other = location
  · subst hsame
    rw [hnone, if_pos rfl] at h
    cases h
    exact .inl ⟨rfl, rfl⟩
  · rw [if_neg hsame, Option.or_none] at h
    exact .inr h

/-- Making a file leaves a disk well-formed. -/
theorem WellFormed.create {disk : Disk} (hwf : disk.WellFormed) {location : Location}
    (hnone : disk.entry? location = none) :
  (disk.create location).WellFormed
  := by
  constructor
  · rw [entry?_create]
    change (disk.entry? disk.here).or _ = _
    rw [hwf.here]
    rfl
  · intro other number h
    rw [Disk.create, List.length_append, List.length_singleton]
    rcases file_of_create hnone h with ⟨-, rfl⟩ | h
    · omega
    · exact Nat.lt_succ_of_lt (hwf.exists_file h)
  · intro other other' number h h'
    rcases file_of_create hnone h with ⟨rfl, rfl⟩ | hold
    · rcases file_of_create hnone h' with ⟨rfl, -⟩ | hold'
      · rfl
      · exact absurd (hwf.exists_file hold') (Nat.lt_irrefl _)
    · rcases file_of_create hnone h' with ⟨-, rfl⟩ | hold'
      · exact absurd (hwf.exists_file hold) (Nat.lt_irrefl _)
      · exact hwf.unique hold hold'

/-- Opening a file that is there changes nothing. -/
theorem openFile_of_file {disk : Disk} {location : Location} {number : Nat}
    (h : disk.entry? location = some (.file number)) :
  disk.openFile location = .ok (number, disk)
  := by
  unfold openFile
  rw [h]

/-- A file can be opened where there is no directory. -/
theorem exists_openFile {disk : Disk} {location : Location}
    (h : disk.entry? location ≠ some .directory) :
  ∃ number after, disk.openFile location = .ok (number, after)
  := by
  unfold openFile
  rcases hentry : disk.entry? location with _ | _ | number
  · exact ⟨_, _, rfl⟩
  · exact absurd hentry h
  · exact ⟨_, _, rfl⟩

/-- There is a file where one was opened. -/
theorem entry?_of_openFile {before after : Disk} {location : Location} {number : Nat}
    (h : before.openFile location = .ok (number, after)) :
  after.entry? location = some (.file number)
  := by
  unfold Disk.openFile at h
  split at h
  · cases h
  next found hentry =>
    cases h
    exact hentry
  next hnone =>
    cases h
    exact (entry?_create before location location).trans (by rw [hnone, if_pos rfl]; rfl)

/-- A file that is made is none of those that were there. -/
theorem entry?_openFile_iff {before after : Disk} {location : Location} {number old : Nat}
    (h : before.openFile location = .ok (number, after)) (hold : old < before.contents.length) :
  after.entry? location = some (.file old) ↔ before.entry? location = some (.file old)
  := by
  have hfile := entry?_of_openFile h
  unfold openFile at h
  split at h
  · cases h
  next found hentry =>
    cases h
    rfl
  next hnone =>
    cases h
    rw [hfile, hnone, Option.some_inj, Entry.file.injEq]
    exact iff_of_false (Nat.ne_of_gt hold) nofun

/-- Opening a file takes none away. -/
theorem length_le_of_openFile {before after : Disk} {location : Location} {number : Nat}
    (h : before.openFile location = .ok (number, after)) :
  before.contents.length ≤ after.contents.length
  := by
  unfold openFile at h
  split at h
  · cases h
  · cases h
    exact Nat.le_refl _
  · cases h
    rw [List.length_append]
    exact Nat.le_add_right _ _

/-- Opening a file leaves the content of those that were there. -/
theorem content_of_openFile {before after : Disk} {location : Location} {number old : Nat}
    (h : before.openFile location = .ok (number, after)) (hold : old < before.contents.length) :
  after.content old = before.content old
  := by
  unfold openFile at h
  split at h
  · cases h
  · cases h
    rfl
  · cases h
    rw [content, content, List.getD_eq_getElem?_getD, List.getD_eq_getElem?_getD,
      List.getElem?_append_left hold]

/-- There is a file where a content was stored. -/
theorem entry?_of_store {before after : Disk} {location : Location} {bytes : Text.Bytes}
    (h : before.store location bytes = .ok after) :
  ∃ number, after.entry? location = some (.file number)
  := by
  unfold Disk.store at h
  rcases hopen : before.openFile location with e | ⟨number, opened⟩
  · rw [hopen] at h
    cases h
  · rw [hopen] at h
    cases h
    have hsame : Disk.entry? ((opened.resize number 0).write number bytes) = opened.entry? :=
      entry?_congr rfl
    exact ⟨number, (congrFun hsame location).trans (entry?_of_openFile hopen)⟩

/-- Opening a file makes it if it is missing. -/
theorem WellFormed.openFile {before after : Disk} (hwf : before.WellFormed) {location : Location}
    {number : Nat} (h : before.openFile location = .ok (number, after)) :
  Opened before location number after
  := by
  have hfile := entry?_of_openFile h
  unfold Disk.openFile at h
  split at h
  · cases h
  next found hentry =>
    cases h
    exact ⟨hwf, ⟨rfl, id⟩, hfile, fun _ _ => rfl⟩
  next hnone =>
    cases h
    refine ⟨hwf.create hnone, ⟨rfl, fun {other} hother => ?_⟩, hfile, fun other hother => ?_⟩
    · exact (entry?_create before location other).trans (by rw [hother]; rfl)
    · exact (entry?_create before location other).trans (by rw [if_neg hother, Option.or_none])

/-- What storing a content in a file leaves. -/
structure Stored (before : Disk) (location : Location) (bytes : Text.Bytes) (number : Nat)
    (after : Disk) : Prop extends Opened before location number after where
  content : after.content number = bytes
  others : ∀ old < before.contents.length, old ≠ number → after.content old = before.content old
  length_le : before.contents.length ≤ after.contents.length
  old_iff : ∀ old < before.contents.length,
    after.entry? location = some (.file old) ↔ before.entry? location = some (.file old)

/-- Storing a content in a file opens the file and replaces its content. -/
theorem WellFormed.store {before after : Disk} (hwf : before.WellFormed) {location : Location}
    {bytes : Text.Bytes} (h : before.store location bytes = .ok after) :
  ∃ number, Stored before location bytes number after
  := by
  unfold Disk.store at h
  rcases hopen : before.openFile location with e | ⟨number, opened⟩
  · rw [hopen] at h
    cases h
  · rw [hopen] at h
    cases h
    have hopened := hwf.openFile hopen
    have hexists := hopened.wellFormed.exists_file hopened.entry
    have hafter : (opened.resize number 0).write number bytes = opened.edit number bytes := by
      simp [resize_eq_edit, write_eq_edit, hexists]
    have hentry := opened.entry?_edit number bytes
    use number
    simp only [hafter]
    refine ⟨⟨hopened.wellFormed.edit _ _, ?_, ?_, ?_⟩, content_edit hexists bytes, ?_, ?_, ?_⟩
    · refine ⟨hopened.keeps.here, fun {other} hother => ?_⟩
      rw [hentry]
      exact hopened.keeps.directory hother
    · rw [hentry]
      exact hopened.entry
    · rw [hentry]
      exact hopened.elsewhere
    · intro old hold hne
      simp [hne.symm, content_of_openFile hopen hold]
    · rw [Disk.edit, List.length_set]
      exact length_le_of_openFile hopen
    · intro old hold
      rw [hentry]
      exact entry?_openFile_iff hopen hold

/-- Storing a content gives no name to a file that was there, and takes none from it. -/
theorem Stored.entry?_iff {before after : Disk} {location : Location} {bytes : Text.Bytes}
    {number old : Nat} (h : Stored before location bytes number after)
    (hold : old < before.contents.length) (other : Location) :
  after.entry? other = some (.file old) ↔ before.entry? other = some (.file old)
  := by
  by_cases hother : other = location
  · rw [hother]
    exact h.old_iff old hold
  · rw [h.elsewhere other hother]

/-- What is read under other names does not change when a content is stored. -/
theorem Stored.read_of_ne {before after : Disk} {location other : Location} {bytes : Text.Bytes}
    {number : Nat} (h : Stored before location bytes number after) (hwf : before.WellFormed)
    (hne : other ≠ location) :
  after.read other = before.read other
  := by
  have hentry := h.elsewhere other hne
  unfold read
  rw [hentry]
  rcases hold : before.entry? other with _ | _ | old
  · rfl
  · rfl
  · have hnumber : old ≠ number := by
      rintro rfl
      exact hne (h.wellFormed.unique (hentry.trans hold) h.entry)
    exact congrArg Except.ok (h.others old (hwf.exists_file hold) hnumber)

/-! ### Renaming -/

/-- What is found after a file has been given the name of another one. -/
theorem entry?_rename {disk : Disk} {source target : Location} (hsource : source ≠ [])
    (htarget : target ≠ []) (entry : Entry) (other : Location) :
  Disk.entry? (((disk.unbind source).unbind target).bind target entry) other
    = if other = target then some entry else if other = source then none else disk.entry? other
  := by
  rw [entry?_bind, entry?_unbind _ htarget, entry?_unbind _ hsource]
  split_ifs with htarget
  · rfl
  · rfl
  · exact Option.or_none

section

variable {disk after : Disk} {source target : Location} (hsource : source ≠ [])
  (htarget : target ≠ []) (h : disk.rename source target = .ok after)

include h in
/-- Renaming leaves the contents of the files. -/
theorem contents_of_rename :
  after.contents = disk.contents
  := by
  unfold Disk.rename at h
  split at h
  · cases h
  · cases h
  · cases h
    rfl

include hsource htarget h

/-- What is found when an entry has been renamed. -/
theorem entry?_of_rename (other : Location) :
  after.entry? other
    = if other = target then disk.entry? source
      else if other = source then none else disk.entry? other
  := by
  unfold Disk.rename at h
  split at h
  · cases h
  · cases h
  next entry hentry _ =>
    cases h
    rw [entry?_rename hsource htarget, hentry]

/-- What is read under other names does not change when an entry is renamed. -/
theorem read_of_rename {other : Location} (hother : other ≠ source) (hother' : other ≠ target) :
  after.read other = disk.read other
  := by
  unfold read content
  rw [entry?_of_rename hsource htarget h, if_neg hother', if_neg hother, contents_of_rename h]

/-- A file that had no name has none when an entry has been renamed. -/
theorem entry?_ne_of_rename {number : Nat} (hnone : ∀ other, disk.entry? other ≠ some (.file number))
    (other : Location) :
  after.entry? other ≠ some (.file number)
  := by
  rw [entry?_of_rename hsource htarget h]
  split_ifs
  · exact hnone source
  · nofun
  · exact hnone other

/-- The file whose name is given to another one has no name then. -/
theorem WellFormed.entry?_ne_of_rename (hwf : disk.WellFormed) (hne : source ≠ target) {number : Nat}
    (hnumber : disk.entry? target = some (.file number)) (other : Location) :
  after.entry? other ≠ some (.file number)
  := by
  rw [entry?_of_rename hsource htarget h]
  split_ifs with hother
  · exact fun hentry => hne (hwf.unique hentry hnumber)
  · nofun
  · exact fun hentry => hother (hwf.unique hentry hnumber)

end

/-- A file that is found afterwards is the renamed one, or it was there. -/
theorem file_of_rename {disk : Disk} {source target other : Location} {number number' : Nat}
    (hsource : source ≠ []) (htarget : target ≠ [])
    (h : Disk.entry? (((disk.unbind source).unbind target).bind target (.file number)) other
      = some (.file number')) :
  (other = target ∧ number' = number)
    ∨ (other ≠ source ∧ disk.entry? other = some (.file number'))
  := by
  rw [entry?_rename hsource htarget] at h
  split_ifs at h with hother hgone
  · cases h
    exact .inl ⟨hother, rfl⟩
  · exact .inr ⟨hgone, h⟩

/-- A file can be given every name that is not that of a directory, and its old name is gone
then. -/
theorem WellFormed.rename {disk : Disk} (hwf : disk.WellFormed) {source target : Location}
    {number : Nat} (hsource : disk.entry? source = some (.file number))
    (htarget : disk.entry? target ≠ some .directory) :
  ∃ after, disk.rename source target = .ok after ∧ after.WellFormed ∧ Keeps disk after
    ∧ after.entry? target = some (.file number) ∧ after.contents = disk.contents
  := by
  have hsource' : source ≠ [] := by
    rintro rfl
    cases hsource
  have htarget' : target ≠ [] := by
    rintro rfl
    exact htarget rfl
  have hentry : ∀ other, Disk.entry? (((disk.unbind source).unbind target).bind target
      (.file number)) other = if other = target then some (.file number)
        else if other = source then none else disk.entry? other :=
    entry?_rename hsource' htarget' (.file number)
  have hkeeps : Keeps disk (((disk.unbind source).unbind target).bind target (.file number)) := by
    refine ⟨rfl, fun {other} hother => ?_⟩
    rw [hentry, if_neg, if_neg, hother]
    · rintro rfl
      rw [hsource] at hother
      cases hother
    · rintro rfl
      exact htarget hother
  refine ⟨_, ?_, ⟨hkeeps.directory hwf.here, ?_, ?_⟩, hkeeps, ?_, rfl⟩
  · unfold Disk.rename
    rw [hsource]
    rcases hold : disk.entry? target with _ | _ | number'
    · rfl
    · exact absurd hold htarget
    · rfl
  · intro other number'' hother
    rcases file_of_rename hsource' htarget' hother with ⟨-, rfl⟩ | ⟨-, hold⟩
    · exact hwf.exists_file hsource
    · exact hwf.exists_file hold
  · intro other other' number'' hother hother'
    rcases file_of_rename hsource' htarget' hother with ⟨rfl, rfl⟩ | ⟨hne, hold⟩
    · rcases file_of_rename hsource' htarget' hother' with ⟨rfl, -⟩ | ⟨hne', hold'⟩
      · rfl
      · exact absurd (hwf.unique hold' hsource) hne'
    · rcases file_of_rename hsource' htarget' hother' with ⟨-, rfl⟩ | ⟨-, hold'⟩
      · exact absurd (hwf.unique hold hsource) hne
      · exact hwf.unique hold hold'
  · rw [hentry, if_pos rfl]

/-! ### Removing -/

/-- A name that is not that of a directory is gone when it has been removed. -/
theorem entry?_unlink {disk : Disk} {location : Location}
    (h : disk.entry? location ≠ some .directory) :
  Disk.entry? (disk.unlink location) location = none
  := by
  unfold Disk.unlink
  rcases hentry : disk.entry? location with _ | _ | number
  · exact hentry
  · exact absurd hentry h
  · have hne : location ≠ [] := by
      rintro rfl
      cases hentry
    exact (entry?_unbind disk hne location).trans (if_pos rfl)

/-- Removing a name leaves the contents. -/
theorem contents_unlink (disk : Disk) (location : Location) :
  (disk.unlink location).contents = disk.contents
  := by
  unfold Disk.unlink
  split <;> rfl

/-- Removing a name keeps the directories, and leaves a well-formed disk well-formed. -/
theorem WellFormed.unlink {disk : Disk} (hwf : disk.WellFormed) (location : Location) :
  (disk.unlink location).WellFormed ∧ Keeps disk (disk.unlink location)
  := by
  unfold Disk.unlink
  rcases hentry : disk.entry? location with _ | _ | number
  · exact ⟨hwf, rfl, id⟩
  · exact ⟨hwf, rfl, id⟩
  · have hne : location ≠ [] := by
      rintro rfl
      cases hentry
    have hkeeps : Keeps disk (disk.unbind location) := by
      refine ⟨rfl, fun {other} hother => ?_⟩
      rw [entry?_unbind disk hne, if_neg, hother]
      rintro rfl
      cases hother.symm.trans hentry
    have hfile : ∀ {other : Location} {number' : Nat},
        Disk.entry? (disk.unbind location) other = some (.file number') →
          disk.entry? other = some (.file number') := by
      intro other number' hother
      rw [entry?_unbind disk hne] at hother
      split_ifs at hother
      exact hother
    exact ⟨⟨hkeeps.directory hwf.here, fun h => hwf.exists_file (hfile h),
      fun h h' => hwf.unique (hfile h) (hfile h')⟩, hkeeps⟩

end Disk

end IslandPlots
