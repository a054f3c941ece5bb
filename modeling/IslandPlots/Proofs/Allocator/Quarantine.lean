import IslandPlots.Proofs.Allocator.Filed
import IslandPlots.Proofs.Journal.Sharing

/-!
# A stuck log is in quarantine

When the device stores some bytes of an append and then refuses to cut the file back, the log is
stuck.  From then on every call that would have to write fails, and nothing changes in memory, until
the log is opened anew or compacted (`Allocator.Filed.turns_of_remnant`).  On the disk nothing
changes either, unless the device fails in a compaction as well: then the draft of the new log can be
left behind, and if it fails late, the new log is in the place of the old one although the compaction
has failed.

A compaction that succeeds leaves a file of which the state in memory is just what a replay gives
(`Allocator.Filed.healed_of_placed`), and appends are acknowledged again
(`Allocator.stuck_log_quarantined`).
-/

namespace IslandPlots

/-- An append to a store whose journal is stuck is refused, and nothing changes. -/
theorem Store.appendAll_of_remnant
    {store : Store FileJournal} {remnant : Remnant} (h : store.journal.remnant = some remnant)
    {records : List Record} (haccepts : store.ledger.Accepts records) :
  store.appendAll records
    = .fail (.storage store.journal.path (.unusable store.journal.path remnant)) store
  := appendAll_of_fail haccepts (FileJournal.append_of_remnant h _)

namespace FileJournal

/-! ### Writes in which the device fails -/

section

variable {journal : FileJournal} {keep : Nat} (hfault : journal.fault = some ⟨keep, true⟩)
  (lines : List String)

include hfault

/-- When the device is to stop the write and to refuse to cut the file back, an append is refused
before that, or it leaves some of its bytes. -/
theorem append_of_stuck_fault :
  (∃ fault, journal.append lines = .fail fault journal)
    ∨ ∃ torn fault notices, journal.append lines = .fail fault
      { journal with
        disk := journal.disk.edit journal.handle
          (journal.content ++ (appendBytes torn lines).take keep)
        remnant := some ⟨journal.content.length⟩
        fault := none } notices
  := by
  rcases journal.append_eq_writeBytes lines with hrefused | ⟨torn, heq⟩
  · exact .inl hrefused
  · right
    rw [heq, writeBytes, hfault]
    simp only [if_true]
    rw [Disk.write_eq_edit, ← List.take_eq_take_min]
    exact ⟨torn, _, _, rfl⟩

/-- It is not refused if the name of the log leads to the open file. -/
theorem Linked.remnant_append
    {directory : String} (h : journal.Linked directory) (hremnant : journal.remnant = none) :
  (journal.append lines).state.remnant ≠ none
  := by
  rw [h.append_eq hremnant, writeBytes, hfault]
  simp only [if_true]
  nofun

end

/-- What a journal keeps beside its disk while it writes nothing to its log, and what is read on the
disk beside the log and the draft. -/
structure Idle (before after : FileJournal) : Prop where
  path : after.path = before.path
  directory : after.directory = before.directory
  remnant : after.remnant = before.remnant
  elsewhere : ∀ location, location ≠ before.place → location ≠ before.draftPlace →
    after.disk.read location = before.disk.read location

/-- A journal that does nothing is idle. -/
theorem Idle.refl (journal : FileJournal) :
  journal.Idle journal
  := ⟨rfl, rfl, rfl, fun _ _ _ => rfl⟩

/-- An idle journal that stays idle is idle. -/
theorem Idle.trans
    {first second third : FileJournal} (h : first.Idle second) (hnext : second.Idle third) :
  first.Idle third
  := by
  have hplace : second.place = first.place := congrArg (· ++ [logFileName]) h.directory
  have hdraft : second.draftPlace = first.draftPlace := congrArg (· ++ [draftName]) h.directory
  refine ⟨hnext.path.trans h.path, hnext.directory.trans h.directory,
    hnext.remnant.trans h.remnant, ?_⟩
  intro location hne hne'
  rw [hnext.elsewhere location (hplace ▸ hne) (hdraft ▸ hne'), h.elsewhere location hne hne']

/-- A failure of the device to come does not matter to what an idle journal keeps. -/
theorem Idle.of_strike
    {before after : FileJournal} {mishap : Mishap} (h : (before.strike mishap).Idle after) :
  before.Idle after.calm
  := ⟨h.path, h.directory, h.remnant, h.elsewhere⟩

/-- A failure of the device to come does not matter to what is in the place of the log. -/
theorem Placed.of_mishap
    {journal : FileJournal} {mishap : Option Mishap} {bytes : Text.Bytes} {number : Nat}
    {disk : Disk}
    (h : ({ journal with mishap := mishap } : FileJournal).Placed bytes number disk) :
  journal.Placed bytes number disk
  := ⟨h.wellFormed, h.keeps, h.entry, h.content, h.draft, h.elsewhere, h.length_le, h.nameless⟩

/-- A replacement that fails writes nothing to the log, unless the new log is in its place
nevertheless. -/
theorem Named.replace_error
    {directory : String} {number : Nat} {journal : FileJournal} (h : journal.Named directory number)
    {lines : List String} {fault : JournalFault}
    (hfailed : (journal.replace lines).result = .error fault) :
  let after := (journal.replace lines).state
  journal.Idle after
    ∧ (¬ fault.Displaced → after.disk.read journal.place = journal.disk.read journal.place)
  := by
  intro after
  rcases h.based.replace_ends lines with
    ⟨cause, -, heq⟩ | ⟨drafted, early, hdraft, -, heq⟩ | ⟨disk, new, late, hplaced, hlate, heq⟩
      | ⟨disk, new, -, heq⟩
  · simp only [after, heq]
    exact ⟨.refl journal, fun _ => rfl⟩
  · obtain ⟨number, hstored⟩ := h.linked.wellFormed.store (store_of_draft hdraft)
    have hread : ∀ location, location ≠ journal.draftPlace →
        drafted.read location = journal.disk.read location :=
      fun _ hne => hstored.read_of_ne h.linked.wellFormed hne
    simp only [after, heq]
    exact ⟨⟨rfl, rfl, rfl, fun location _ => hread location⟩,
      fun _ => hread journal.place journal.draftPlace_ne_place.symm⟩
  · rw [heq] at hfailed
    obtain rfl : late = fault := Except.error.inj hfailed
    simp only [after, heq]
    refine ⟨⟨rfl, rfl, rfl, hplaced.elsewhere⟩, fun hnot => ?_⟩
    exact absurd (displaced_of_lateFault? hlate) hnot
  · rw [heq] at hfailed
    cases hfailed

end FileJournal

namespace Allocator

/-! ### Calls that write -/

section

variable {J : Type} [Journal J]

/-- A call has to write: there is a plot to be handed out, or somebody holds the one that is to be
released. -/
def Call.Writes (a : Allocator J) : Call → Prop
  | .allocate _ _ => ∃ place, a.offer = .ok place
  | .release place _ => a.ledger.isAssigned place = true
  | _ => False

omit [Journal J] in
/-- A result that is changed has the same error. -/
theorem error?_map {α β : Type} (result : Except Failure α) (f : α → β) :
  error? (result.map f) = error? result
  := by
  cases result <;> rfl

/-- A call that has to write appends records that can be taken in, and it fails if the append
does. -/
theorem Pooled.answer_of_writes
    {a : Allocator J} (h : a.Pooled) {call : Call} (hwrites : call.Writes a) :
  ∃ records, a.store.ledger.Accepts records
    ∧ (a.answer call).1.failure? = error? (a.store.appendAll records).result
    ∧ (a.answer call).2 = a.withStore (a.store.appendAll records).state
  := by
  cases call with
  | allocate name now =>
    obtain ⟨place, hoffer⟩ := hwrites
    rcases h.allocate_cases name now with
      ⟨failure, hnone, -, -⟩ | ⟨found, moves, -, hfree, hmoves, -, hresult, hstate⟩
    · cases hnone.symm.trans hoffer
    · refine ⟨_, accepts_of_isFree hfree _ now fun r hr => (hmoves r hr).2, ?_, hstate⟩
      exact (congrArg error? hresult).trans (error?_map ..)
  | release place now =>
    have hassigned : a.ledger.isAssigned place = true := hwrites
    rcases h.release_cases place now with ⟨hnot, -, -⟩ | ⟨-, hresult, hstate⟩
    · cases hnot.symm.trans hassigned
    · refine ⟨_, accepts_of_isAssigned hassigned now, ?_, hstate⟩
      exact (congrArg error? hresult).trans (error?_map ..)
  | compact | ownerOf | isAssigned | stats => cases hwrites

/-- A call that need not write does nothing, unless it is a compaction. -/
theorem Pooled.answer_of_not_writes
    {a : Allocator J} (h : a.Pooled) {call : Call} (hwrites : ¬ call.Writes a)
    (hcompact : ∀ now, call ≠ .compact now) :
  (a.answer call).2 = a
  := by
  cases call with
  | allocate name now =>
    rcases h.allocate_cases name now with ⟨-, -, -, hstate⟩ | ⟨place, -, hoffer, -⟩
    · exact hstate
    · exact absurd ⟨place, hoffer⟩ hwrites
  | release place now =>
    rcases h.release_cases place now with ⟨-, -, hstate⟩ | ⟨hassigned, -, -⟩
    · exact hstate
    · exact absurd hassigned hwrites
  | compact now => exact absurd rfl (hcompact now)
  | ownerOf | isAssigned | stats => rfl

end

/-! ### The failed append -/

namespace Filed

variable {a : Allocator FileJournal} (h : a.Filed)

include h

/-- A call that has to write fails when the device is to stop the write and to refuse to cut the
file back.  It changes nothing but that some bytes may be left in the file, and then the log is
stuck.  So it is when the name of the log leads to the open file. -/
theorem answer_befall
    (hremnant : a.store.journal.remnant = none) {call : Call} (hwrites : call.Writes a)
    (keep : Nat) :
  let fault : ShortWrite := ⟨keep, true⟩
  let failed := (a.befall fault).answer call
  ∃ cause journal, failed.1.failure? = some (.storage a.store.journal.path cause)
    ∧ failed.2 = a.onJournal journal ∧ failed.2.Filed ∧ journal.path = a.store.journal.path
    ∧ (journal.remnant ≠ none → ∃ torn lines, journal.content
      = a.store.journal.content ++ (FileJournal.appendBytes torn lines).take keep)
    ∧ (a.store.journal.Linked a.settings.storageDir → journal.remnant ≠ none)
  := by
  intro fault failed
  obtain ⟨number, hnamed⟩ := h.named
  let device : FileJournal := { a.store.journal with fault := some fault }
  have hfiled : (a.onJournal device).Filed := h.onJournal (hnamed.of_same _ (some fault) _) h.calm
  have hafter : failed.2.Filed := hfiled.answer call
  have hwrites' : call.Writes (a.onJournal device) := by
    cases call <;> exact hwrites
  obtain ⟨records, haccepts, hanswer, hstate⟩ := hfiled.pooled.answer_of_writes hwrites'
  have hfault : device.fault = some ⟨keep, true⟩ := rfl
  have hstuck : a.store.journal.Linked a.settings.storageDir →
      (device.append (records.map Record.line)).state.remnant ≠ none :=
    fun hlinked => FileJournal.Linked.remnant_append hfault _
      (hlinked.of_same _ (some fault) a.store.journal.mishap) hremnant
  rcases FileJournal.append_of_stuck_fault hfault (records.map Record.line) with
    ⟨cause, hrefused⟩ | ⟨torn, cause, notices, htorn⟩
  · rw [hrefused] at hstuck
    rw [Store.appendAll_of_fail haccepts hrefused] at hanswer hstate
    exact ⟨cause, device, hanswer, hstate.trans (hfiled.pooled.withStore_journal _), hafter, rfl,
      fun hne => absurd hremnant hne, hstuck⟩
  · rw [Store.appendAll_of_fail haccepts htorn] at hanswer hstate
    refine ⟨cause, _, hanswer, hstate.trans (hfiled.pooled.withStore_journal _), hafter, rfl,
      fun _ => ⟨torn, records.map Record.line, ?_⟩, fun _ => nofun⟩
    exact Disk.content_edit hnamed.handle_lt _

/-! ### While the log is stuck -/

/-- A call that has to write fails when the log is stuck. -/
theorem failure?_answer_of_remnant
    {remnant : Remnant} (hremnant : a.store.journal.remnant = some remnant) {call : Call}
    (hwrites : call.Writes a) :
  (a.answer call).1.failure?
    = some (.storage a.store.journal.path (.unusable a.store.journal.path remnant))
  := by
  obtain ⟨records, haccepts, hanswer, -⟩ := h.pooled.answer_of_writes hwrites
  rw [hanswer, Store.appendAll_of_remnant hremnant haccepts]
  rfl

/-- A compaction that fails does nothing, unless the device fails. -/
theorem compact_of_error
    {now : UInt64} {failure : Failure} (hfailed : (a.compact now).result = .error failure) :
  (a.compact now).state = a
  := by
  rcases h.based.replace_cases h.calm ((a.ledger.snapshot now).map Record.line) with
    ⟨disk, handle, hreplace, -⟩ | ⟨cause, -, hreplace⟩
  · have hcompaction := h.pooled.compaction now hreplace
    rw [hfailed] at hcompaction
    obtain ⟨-, -, -, ⟨⟩, -⟩ := hcompaction.of_error
  · have hcompaction := h.pooled.compaction now hreplace
    rw [hfailed] at hcompaction
    obtain ⟨-, -, -, -, hstate⟩ := hcompaction.of_error
    exact hstate

/-- A call does nothing when the log is stuck, unless it is a compaction that succeeds. -/
theorem answer_of_remnant
    {remnant : Remnant} (hremnant : a.store.journal.remnant = some remnant) {call : Call}
    (hquiet : ∀ count, (a.answer call).1 ≠ .compacted (.ok count)) :
  (a.answer call).2 = a
  := by
  by_cases hwrites : call.Writes a
  · obtain ⟨records, haccepts, -, hstate⟩ := h.pooled.answer_of_writes hwrites
    rw [hstate, Store.appendAll_of_remnant hremnant haccepts]
    exact h.pooled.withStore_store
  by_cases hcompact : ∃ now, call = .compact now
  · obtain ⟨now, rfl⟩ := hcompact
    rcases hresult : (a.compact now).result with failure | count
    · exact h.compact_of_error hresult
    · exact absurd (congrArg Answer.compacted hresult) (hquiet count)
  · exact h.pooled.answer_of_not_writes hwrites (not_exists.1 hcompact)

end Filed

/-- A turn in which a compaction fails although the new log is in the place of the old one. -/
def Turn.Displaces (a : Allocator FileJournal) : Turn FileJournal → Prop
  | .event _ => False
  | .mishap how now => ∃ path fault,
    (a.compactAmid how now).result = .error (.storage path fault) ∧ fault.Displaced

/-- While nothing heals a stuck log, a turn changes only what the device will do, and it leaves the
disk if no device fails in it.  If one does, what is read elsewhere than under the names of the log
and of the draft stays, and so does what is read in the log, unless there is a new one. -/
theorem Filed.turn_of_remnant
    {a : Allocator FileJournal} (h : a.Filed) {remnant : Remnant}
    (hremnant : a.store.journal.remnant = some remnant) {turn : Turn FileJournal}
    (hquiet : ¬ turn.Heals a) :
  ∃ journal, a.turn turn = a.onJournal journal ∧ a.store.journal.Idle journal
    ∧ (¬ turn.Displaces a →
      journal.disk.read a.store.journal.place = a.store.journal.disk.read a.store.journal.place)
    ∧ (∀ event, turn = .event event → journal.disk = a.store.journal.disk)
  := by
  have hsame : ∀ {after}, after = a → ∃ journal, after = a.onJournal journal
      ∧ a.store.journal.Idle journal
      ∧ (¬ turn.Displaces a →
        journal.disk.read a.store.journal.place = a.store.journal.disk.read a.store.journal.place)
      ∧ (∀ event, turn = .event event → journal.disk = a.store.journal.disk) := by
    rintro _ rfl
    exact ⟨_, rfl, .refl _, fun _ => rfl, fun _ _ => rfl⟩
  rcases turn with (call | fault | ⟨spacing, radius⟩) | ⟨mishap, now⟩
  · exact hsame (h.answer_of_remnant hremnant (not_exists.1 hquiet))
  · exact ⟨{ a.store.journal with fault := some fault }, rfl,
      ⟨rfl, rfl, rfl, fun _ _ _ => rfl⟩, fun _ => rfl, fun _ _ => rfl⟩
  · rcases h.reopen_cases spacing radius with ⟨-, -, -, -, -, hresult, -⟩ | hstate
    · exact absurd hresult hquiet
    · exact hsame hstate
  · obtain ⟨number, hnamed⟩ := h.named
    have hstruck : (a.store.journal.strike mishap).Named a.settings.storageDir number :=
      hnamed.of_same _ _ _
    have hcompaction := h.pooled.compactionAmid mishap now rfl
    rcases hresult : (a.compactAmid mishap now).result with failure | count
    · rw [hresult] at hcompaction
      obtain ⟨path, fault, rfl, hreplaced, hstate⟩ := hcompaction.of_error
      obtain ⟨hidle, hlog⟩ := hstruck.replace_error hreplaced
      refine ⟨_, hstate, hidle.of_strike, fun hnot => ?_, fun event heq => by cases heq⟩
      exact hlog fun hdisplaced => hnot ⟨path, fault, hresult, hdisplaced⟩
    · exact absurd ⟨count, hresult⟩ hquiet

/-- While nothing heals a stuck log, a run changes only what the device will do, and it leaves the
disk if no device fails in it.  If one does, what is read elsewhere than under the names of the log
and of the draft stays, and so does what is read in the log, unless there is a new one. -/
theorem Filed.turns_of_remnant
    {a : Allocator FileJournal} (h : a.Filed) {remnant : Remnant}
    (hremnant : a.store.journal.remnant = some remnant) {course : List (Turn FileJournal)}
    (hquiet : ¬ a.Happens Turn.Heals course) :
  ∃ journal, a.turns course = a.onJournal journal ∧ a.store.journal.Idle journal
    ∧ (¬ a.Happens Turn.Displaces course →
      journal.disk.read a.store.journal.place = a.store.journal.disk.read a.store.journal.place)
    ∧ ((∀ turn ∈ course, ∃ event, turn = .event event) → journal.disk = a.store.journal.disk)
  := by
  induction course using List.reverseRecOn with
  | nil => exact ⟨_, rfl, .refl _, fun _ => rfl, fun _ => rfl⟩
  | append_singleton course turn ih =>
    rw [happens_concat, not_or] at hquiet
    obtain ⟨journal, hcourse, hidle, hlog, hdisk⟩ := ih hquiet.1
    have hfiled : (a.onJournal journal).Filed := hcourse ▸ h.turns course
    obtain ⟨after, hturn, hidle', hlog', hdisk'⟩ :=
      hfiled.turn_of_remnant (hidle.remnant.trans hremnant) (hcourse ▸ hquiet.2)
    have hplace : journal.place = a.store.journal.place :=
      congrArg (· ++ [logFileName]) hidle.directory
    refine ⟨after, ?_, hidle.trans hidle', ?_, ?_⟩
    · simp [hcourse, hturn]
    · intro hnot
      rw [happens_concat, not_or, hcourse] at hnot
      rw [← hplace]
      exact (hlog' hnot.2).trans (hplace ▸ hlog hnot.1)
    · intro hevents
      obtain ⟨event, rfl⟩ := hevents turn (List.mem_append_right _ List.mem_cons_self)
      exact (hdisk' event rfl).trans
        (hdisk fun other hother => hevents other (List.mem_append_left _ hother))

/-- What an allocator is, says and does while its log is stuck, beside what it was before. -/
structure Quarantined (before stuck : Allocator FileJournal) : Prop where
  settings : stuck.settings = before.settings
  ledger : stuck.ledger = before.ledger
  corrupt : stuck.store.corrupt = before.store.corrupt
  pool : stuck.pool = before.pool
  stats : stuck.stats = before.stats
  /-- The calls that would have to write fail. -/
  refused : ∃ fault, ∀ call : Call, call.Writes before →
    (stuck.answer call).1.failure? = some (.storage before.store.journal.path fault)
  /-- An allocation for which there is no plot fails for that reason. -/
  exhausted : ∀ name now failure, before.offer = .error failure →
    (stuck.allocate name now).result = .error failure
  /-- A plot that nobody holds can be released as ever. -/
  unassigned : ∀ place now, before.ledger.isAssigned place = false →
    (stuck.release place now).result = .ok false

/-- An allocator whose log is stuck is in quarantine. -/
theorem Filed.quarantined
    {a : Allocator FileJournal} {journal : FileJournal} (h : (a.onJournal journal).Filed)
    (hpath : journal.path = a.store.journal.path) (hremnant : journal.remnant ≠ none) :
  a.Quarantined (a.onJournal journal)
  where
  settings := rfl
  ledger := rfl
  corrupt := rfl
  pool := rfl
  stats := rfl
  refused := by
    obtain ⟨remnant, hremnant⟩ := Option.ne_none_iff_exists'.1 hremnant
    rw [← hpath]
    use .unusable journal.path remnant
    intro call hwrites
    apply h.failure?_answer_of_remnant hremnant
    cases call <;> exact hwrites
  exhausted := by
    intro name now failure hnone
    have hnone' : (a.onJournal journal).offer = .error failure := hnone
    rcases h.pooled.allocate_cases name now with
      ⟨failure', hoffer, hresult, -⟩ | ⟨place, -, hoffer, -⟩
    · cases hnone'.symm.trans hoffer
      exact hresult
    · cases hnone'.symm.trans hoffer
  unassigned := by
    intro place now hnot
    rcases h.pooled.release_cases place now with
      ⟨-, hresult, -⟩ | ⟨hassigned, -, -⟩
    · exact hresult
    · cases hnot.symm.trans hassigned

/-! ### Healing -/

/-- What a compaction makes of an allocator, whatever stood in the file. -/
structure Healed (before healed : Allocator FileJournal) (now : UInt64) : Prop where
  settings : healed.settings = before.settings
  tenures : ∀ place, healed.ledger.tenure? place = before.ledger.tenure? place
  orphans : healed.ledger.orphans = before.ledger.orphans
  cursor : healed.ledger.cursor = before.ledger.cursor
  pool : healed.pool = before.pool
  /-- Nothing is in the file but a log of what is in memory. -/
  lines : healed.store.journal.lines = .ok ((before.ledger.snapshot now).map Record.line)
  /-- Appends are acknowledged again, unless the device fails anew. -/
  acknowledged : healed.store.journal.fault = none → ∀ call : Call, call.Writes healed →
    (healed.answer call).1.failure? = none
  /-- Opening the log anew gives just the state in memory. -/
  reopened : ∀ config : Config, config.validate = .ok healed.settings →
    ∃ notices, openFile healed.disk config
      = (.ok (healed.onJournal healed.store.journal.fresh, notices), healed.disk)

/-- A call that has to write is acknowledged when the name of the log leads to the open file, unless
the log is stuck or the device fails. -/
theorem Pooled.failure?_answer_eq_none
    {a : Allocator FileJournal} (h : a.Pooled)
    (hlinked : a.store.journal.Linked a.settings.storageDir)
    (hremnant : a.store.journal.remnant = none) (hfault : a.store.journal.fault = none)
    {call : Call} (hwrites : call.Writes a) :
  (a.answer call).1.failure? = none
  := by
  obtain ⟨records, haccepts, hanswer, -⟩ := h.answer_of_writes hwrites
  have hwritten : (Journal.append a.store.journal (records.map Record.line)).result = .ok () :=
    hlinked.result_append hremnant hfault _
  rw [hanswer, Store.appendAll_of_accepts haccepts]
  simp only [hwritten]
  rfl

/-- What a compaction makes of an allocator does not depend on its journal. -/
theorem Healed.of_onJournal
    {a healed : Allocator FileJournal} {journal : FileJournal} {now : UInt64}
    (h : (a.onJournal journal).Healed healed now) :
  a.Healed healed now
  := ⟨h.settings, h.tenures, h.orphans, h.cursor, h.pool, h.lines, h.acknowledged, h.reopened⟩

namespace Filed

variable {a : Allocator FileJournal} (h : a.Filed)

include h

/-- The allocator whose log has been replaced by the snapshot is that of a file which holds the
snapshot and nothing else. -/
theorem withStore_of_placed
    {now : UInt64} {handle : Nat} {disk : Disk}
    (hplaced : a.store.journal.Placed
      (Text.writeLines ((a.ledger.snapshot now).map Record.line)) handle disk) :
  let journal : FileJournal :=
    { a.store.journal with disk := disk, handle := handle, remnant := none }
  a.withStore {
      journal
      ledger := ({ cursor := a.ledger.cursor } : Ledger).applyAll (a.ledger.snapshot now)
      corrupt := 0 }
    = ofJournal a.settings journal
  := by
  intro journal
  have hheld : LawfulJournal.held journal = (a.ledger.snapshot now).map Record.line :=
    hplaced.readLines (Store.unbroken_map_line _)
  rw [ofJournal, Store.ofJournal, hheld, Ledger.replay_snapshot h.pooled.distinct now,
    Allocator.withStore, h.pooled.alive]
  rfl

/-- Replacing the log by the snapshot heals it. -/
theorem healed_of_placed
    {now : UInt64} {handle : Nat} {disk : Disk}
    (hplaced : a.store.journal.Placed
      (Text.writeLines ((a.ledger.snapshot now).map Record.line)) handle disk) :
  a.Healed (a.withStore {
    journal := { a.store.journal with disk := disk, handle := handle, remnant := none }
    ledger := ({ cursor := a.ledger.cursor } : Ledger).applyAll (a.ledger.snapshot now)
    corrupt := 0 }) now
  := by
  have hsame := h.withStore_of_placed hplaced
  have hlinked := h.based.linked_of_placed hplaced none a.store.journal.mishap
  have horphans : (({ cursor := a.ledger.cursor } : Ledger).applyAll
      (a.ledger.snapshot now)).orphans = a.ledger.orphans :=
    Ledger.orphans_snapshot rfl h.pooled.distinct now
  refine ⟨rfl, ?_, horphans, Ledger.cursor_snapshot a.ledger now, ?_, ?_, ?_, ?_⟩
  · intro place
    refine (Ledger.tenure?_snapshot rfl h.pooled.distinct now place).trans ?_
    rcases htenure : a.ledger.tenure? place with _ | tenure
    · rfl
    · exact congrArg some (h.written place tenure htenure)
  · exact (Pool.ofLedger_congr horphans _).trans h.pooled.pool.symm
  · refine (hlinked.lines_eq).trans (congrArg Except.ok ?_)
    exact hplaced.readLines (Store.unbroken_map_line _)
  · intro hfault call hwrites
    rw [hsame] at hfault hwrites ⊢
    exact (filed_ofJournal hlinked h.calm).pooled.failure?_answer_eq_none hlinked rfl hfault hwrites
  · intro config hvalid
    obtain ⟨notices, hopened⟩ := hlinked.openFile_eq hvalid
    refine ⟨notices, hopened.trans ?_⟩
    rw [hsame]
    rfl

/-- A compaction that succeeds heals the log, whether the device was to fail in it or not. -/
theorem healed_of_compaction
    {mishap : Option Mishap} {now : UInt64} {replaced : Outcome JournalFault FileJournal Unit}
    (hreplaced : ({ a.store.journal with mishap := mishap } : FileJournal).replace
      ((a.ledger.snapshot now).map Record.line) = replaced)
    {count : Nat} {healed : Allocator FileJournal}
    (hcompaction : a.Compaction now replaced.state.calm replaced.result (.ok count) healed) :
  a.Healed healed now
  := by
  subst hreplaced
  obtain ⟨number, hnamed⟩ := h.named
  have hbased := (hnamed.of_same a.store.journal.remnant a.store.journal.fault mishap).based
  obtain ⟨hdone, rfl⟩ := hcompaction.of_ok
  obtain ⟨disk, handle, hplaced, heq⟩ := hbased.replace_of_ok hdone
  have hcalm : ({ a.store.journal with disk := disk, handle := handle, remnant := none } :
      FileJournal).calm
        = { a.store.journal with disk := disk, handle := handle, remnant := none } :=
    FileJournal.calm_of_mishap h.calm
  have hhealed := h.healed_of_placed hplaced.of_mishap
  rw [← hcalm] at hhealed
  rw [heq]
  exact hhealed

/-- A compaction that succeeds heals the log. -/
theorem healed
    {now : UInt64} {count : Nat} (hcompact : (a.compact now).result = .ok count) :
  a.Healed (a.compact now).state now
  := by
  have hcompaction := h.pooled.compaction now rfl
  have hcalm : (Journal.replace a.store.journal ((a.ledger.snapshot now).map Record.line)).state.calm
      = _ := FileJournal.calm_of_mishap (FileJournal.mishap_replace h.calm _)
  rw [hcompact, ← hcalm] at hcompaction
  exact h.healed_of_compaction rfl hcompaction

/-- A compaction that succeeds heals the log also when the device was to fail in it. -/
theorem healed_compactAmid
    {mishap : Mishap} {now : UInt64} {count : Nat}
    (hcompact : (a.compactAmid mishap now).result = .ok count) :
  a.Healed (a.compactAmid mishap now).state now
  := by
  have hcompaction := h.pooled.compactionAmid mishap now rfl
  rw [hcompact] at hcompaction
  exact h.healed_of_compaction rfl hcompaction

end Filed

/-! ### From the failed append to the healing -/

/-- A stuck log is in quarantine, and compaction heals it.  Whatever the file held when the
allocator was opened and whatever has happened since: when the device stops the write of a call
after any number of bytes and refuses to cut the file back, the call fails, leaves these bytes, and
the log is stuck.  Until the log is opened anew or compacted, whatever is called, however often, and
whatever the device does, the allocator is in quarantine.  No byte on the disk changes, unless the
device fails in a compaction; then the draft may have changed, but nothing else, as long as no
compaction has failed after the new log was in its place.  A compaction that succeeds then leaves the
allocator as it was before the failed call, with a file that holds just that. -/
theorem stuck_log_quarantined
    {disk after : Disk} (hwf : disk.WellFormed) {config : Config}
    {opened : Allocator FileJournal} {notices : List Notice}
    (hopen : openFile disk config = (.ok (opened, notices), after))
    (earlier : List (Turn FileJournal))
    (hremnant : (opened.turns earlier).store.journal.remnant = none) {call : Call}
    (hwrites : call.Writes (opened.turns earlier)) (keep : Nat) :
  let before := opened.turns earlier
  let fault : ShortWrite := ⟨keep, true⟩
  let failed := (before.befall fault).answer call
  let log := failed.2.store.journal.place
  let draft := failed.2.store.journal.draftPlace
  (∃ cause, failed.1.failure? = some (.storage before.store.journal.path cause))
    ∧ (before.store.journal.Linked before.settings.storageDir →
      failed.2.store.journal.remnant ≠ none)
    ∧ (failed.2.store.journal.remnant ≠ none →
      (∃ torn lines, failed.2.store.journal.content
        = before.store.journal.content ++ (FileJournal.appendBytes torn lines).take keep)
      ∧ ∀ later, ¬ failed.2.Happens Turn.Heals later →
        let stuck := failed.2.turns later
        before.Quarantined stuck
          ∧ ((∀ turn ∈ later, ∃ event, turn = .event event) → stuck.disk = failed.2.disk)
          ∧ (∀ location, location ≠ log → location ≠ draft →
            stuck.disk.read location = failed.2.disk.read location)
          ∧ (¬ failed.2.Happens Turn.Displaces later →
            stuck.disk.read log = failed.2.disk.read log)
          ∧ (∀ now count, (stuck.compact now).result = .ok count →
            before.Healed (stuck.compact now).state now)
          ∧ ∀ mishap now count, (stuck.compactAmid mishap now).result = .ok count →
            before.Healed (stuck.compactAmid mishap now).state now)
  := by
  intro before fault failed log draft
  obtain ⟨settings, journal, -, hlinked, hfresh, rfl⟩ := eq_of_openFile hwf hopen
  have hcalm : journal.mishap = none := (congrArg FileJournal.mishap hfresh).symm
  have hfiled : before.Filed := (filed_ofJournal hlinked hcalm).turns earlier
  obtain ⟨cause, left, hfailed, hstate, hleft, hpath, hcontent, hstuck⟩ :=
    hfiled.answer_befall hremnant hwrites keep
  change failed.2 = _ at hstate
  change failed.2.Filed at hleft
  refine ⟨⟨cause, hfailed⟩, fun hnamed => ?_, fun hne => ?_⟩
  · rw [hstate]
    exact hstuck hnamed
  rw [hstate] at hne
  refine ⟨?_, ?_⟩
  · rw [hstate]
    exact hcontent hne
  intro later hquiet stuck
  have hlater : stuck.Filed := hleft.turns later
  obtain ⟨remnant, hsome⟩ : ∃ remnant, failed.2.store.journal.remnant = some remnant := by
    rw [hstate]
    exact Option.ne_none_iff_exists'.1 hne
  obtain ⟨idle, hturns, hidle, hlog, hdisk⟩ := hleft.turns_of_remnant hsome hquiet
  have heq : stuck = before.onJournal idle := by
    refine hturns.trans ?_
    rw [hstate]
    rfl
  have hpath' : idle.path = before.store.journal.path := by
    rw [hidle.path, hstate]
    exact hpath
  have hremnant' : idle.remnant ≠ none := by
    rw [hidle.remnant, hsome]
    nofun
  rw [heq] at hlater ⊢
  refine ⟨hlater.quarantined hpath' hremnant', hdisk, hidle.elsewhere, hlog, ?_, ?_⟩
  · intro now count hcompact
    exact (hlater.healed hcompact).of_onJournal
  · intro mishap now count hcompact
    exact (hlater.healed_compactAmid hcompact).of_onJournal

/-- The record with which a plot is given up stays in the file as a whole although the release has
failed.  The plot stays assigned, a second release and a compaction fail too and change no byte of
the log, and a compaction that succeeds leaves a file without the record. -/
theorem stuck_log_quarantined_release :
  let settings : Settings :=
    { spacing := ⟨10, by decide, by decide⟩, exclusion := ⟨0⟩, storageDir := "." }
  let place : Coord := ⟨10, 0, by decide, by decide⟩
  let opened := ofJournal settings (FileJournal.holding ["1;10;0;ASSIGN;ann"])
  let fault : ShortWrite := ⟨1000, true⟩
  let failed := (opened.befall fault).answer (.release place 2)
  let mishap : Mishap := .syncDraft (.device "Input/output error (os error 5)")
  let later : List (Turn FileJournal) := [.event (.call (.release place 3)), .mishap mishap 4]
  let stuck := failed.2.turns later
  Text.readLines failed.2.store.journal.content = ["1;10;0;ASSIGN;ann", "2;10;0;ORPHAN;"]
    ∧ (∃ cause, (stuck.answer (.release place 4)).1.failure?
      = some (.storage "./reservations.log" cause))
    ∧ stuck.disk.read [logFileName] = failed.2.disk.read [logFileName]
    ∧ stuck.ledger.isAssigned place = true
    ∧ (stuck.compact 5).result = .ok 1
    ∧ (stuck.compact 5).state.store.journal.lines = .ok ["1;10;0;ASSIGN;ann"]
  := by
  intro settings place opened fault failed mishap later stuck
  let config : Config := { spacing := ⟨10, by decide⟩, radius := ⟨0, by decide⟩, storageDir := "." }
  have hvalid : config.validate = .ok settings := Config.validate_of_no_exclusion (by decide) "."
  have hlines : ∀ line ∈ ["1;10;0;ASSIGN;ann"], Text.Unbroken line := by
    decide
  have hsound := FileJournal.sound_holding hlines
  obtain ⟨notices, hopen⟩ : ∃ notices,
      openFile (FileJournal.holding ["1;10;0;ASSIGN;ann"]).disk config
        = (.ok (opened, notices), (FileJournal.holding ["1;10;0;ASSIGN;ann"]).disk) :=
    hsound.linked.openFile_eq hvalid
  have hassigned : opened.ledger.isAssigned place = true := by
    decide +kernel
  have hpath : opened.store.journal.path = "./reservations.log" := by
    decide +kernel
  have hread : Text.readLines failed.2.store.journal.content
      = ["1;10;0;ASSIGN;ann", "2;10;0;ORPHAN;"] := by
    decide +kernel
  have hspoiled : ((failed.2.turn (.event (.call (.release place 3)))).compactAmid mishap 4).result
      = .error (.storage "./reservations.log" (.syncDraft "./reservations.log.tmp"
        (.device "Input/output error (os error 5)"))) := by
    decide +kernel
  have hcompact : (stuck.compact 5).result = .ok 1 := by
    decide +kernel
  have hsnapshot : (opened.ledger.snapshot 5).map Record.line = ["1;10;0;ASSIGN;ann"] := by
    decide +kernel
  have hwrites : Call.Writes opened (.release place 2) := hassigned
  have hlater : ∀ {P : Allocator FileJournal → Turn FileJournal → Prop},
      ¬ P failed.2 (.event (.call (.release place 3))) →
      ¬ P (failed.2.turn (.event (.call (.release place 3)))) (.mishap mishap 4) →
      ¬ failed.2.Happens P later := by
    intro P hfirst hsecond
    change ¬ failed.2.Happens P ([] ++ [_] ++ [_])
    simp only [happens_concat, not_or]
    refine ⟨⟨?_, hfirst⟩, hsecond⟩
    rintro ⟨before, turn, after, heq, -⟩
    cases before <;> cases heq
  have hquiet : ¬ failed.2.Happens Turn.Heals later := by
    apply hlater
    · rintro ⟨count, hcount⟩
      cases hcount
    · rintro ⟨count, hcount⟩
      cases hspoiled.symm.trans hcount
  have hplaced : ¬ failed.2.Happens Turn.Displaces later := by
    apply hlater
    · exact id
    · rintro ⟨path, fault, hfault, hdisplaced⟩
      cases hspoiled.symm.trans hfault
      exact hdisplaced
  obtain ⟨-, hlinked, hstuck⟩ := stuck_log_quarantined hsound.wellFormed hopen [] rfl hwrites 1000
  obtain ⟨-, hquarantine⟩ := hstuck (hlinked hsound.linked)
  obtain ⟨hquarantined, -, -, hlog, hhealed, -⟩ := hquarantine _ hquiet
  have hin : opened.Quarantined stuck := hquarantined
  have hout : opened.Healed (stuck.compact 5).state 5 := hhealed 5 1 hcompact
  obtain ⟨cause, hrefused⟩ := hin.refused
  have hagain := hrefused (.release place 4) hassigned
  have hlines := hout.lines
  rw [hpath] at hagain
  rw [hsnapshot] at hlines
  refine ⟨hread, ⟨cause, hagain⟩, hlog hplaced, ?_, hcompact, hlines⟩
  rw [hin.ledger]
  exact hassigned

/-- A compaction in which the device fails early leaves the beginning of a draft, and one in which it
fails late leaves another log, both while the log stays stuck.  After a compaction that has succeeded
the device can fail anew, and then the next release fails. -/
theorem stuck_log_disturbed :
  let settings : Settings :=
    { spacing := ⟨10, by decide, by decide⟩, exclusion := ⟨0⟩, storageDir := "." }
  let place : Coord := ⟨10, 0, by decide, by decide⟩
  let opened := ofJournal settings (FileJournal.holding ["1;10;0;ASSIGN;ann"])
  let fault : ShortWrite := ⟨1000, true⟩
  let again : ShortWrite := ⟨3, false⟩
  let cause : DiskError := .device "Input/output error (os error 5)"
  let failed := ((opened.befall fault).answer (.release place 2)).2
  let early := failed.compactAmid (Mishap.writeDraft 4 cause) 3
  let late := failed.compactAmid (Mishap.syncDirectory cause) 3
  let healed := (failed.befall again).compact 3
  (early.result = .error (.storage "./reservations.log"
        (.writeDraft "./reservations.log.tmp" cause))
      ∧ failed.disk.read [FileJournal.draftName] = .error .notFound
      ∧ early.state.disk.read [FileJournal.draftName] = .ok (Text.encode "1;10".toList))
    ∧ (late.result = .error (.storage "./reservations.log" (.syncDirectory "." cause))
      ∧ failed.disk.read [logFileName]
        = .ok (Text.writeLines ["1;10;0;ASSIGN;ann", "2;10;0;ORPHAN;"])
      ∧ late.state.disk.read [logFileName] = .ok (Text.writeLines ["1;10;0;ASSIGN;ann"])
      ∧ late.state.store.journal.remnant ≠ none)
    ∧ healed.result = .ok 1
    ∧ (healed.state.answer (.release place 4)).1.failure?
      = some (.storage "./reservations.log" (.device "./reservations.log" 3))
  := by
  refine ⟨⟨?_, ?_, ?_⟩, ⟨?_, ?_, ?_, ?_⟩, ?_, ?_⟩ <;> decide +kernel

end Allocator

end IslandPlots
