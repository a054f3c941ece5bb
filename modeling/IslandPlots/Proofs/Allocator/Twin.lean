import IslandPlots.Proofs.Allocator.Alike
import IslandPlots.Proofs.Journal.Refusing
import IslandPlots.Proofs.Store.Twin

/-!
# A log in memory stands in for a log in a file

Two allocators are twins when they have the same settings and their stores are twins
(`Allocator.Twin`).  A call that is made of both is answered alike if both journals acknowledge what
has to be written or neither does (`Allocator.Twin.answer`).  So an allocator on a disk is followed
step by step by one in memory that is told to refuse just when the device fails
(`Allocator.memory_stands_in`).
-/

namespace IslandPlots

namespace Allocator

open LawfulJournal (Sound Clean held)

/-- An answer without the places of journals and the causes of their faults. -/
def Answer.unplaced : Answer → Answer
  | .allocated result => .allocated (result.mapError Failure.unplaced)
  | .released result => .released (result.mapError Failure.unplaced)
  | .compacted result => .compacted (result.mapError Failure.unplaced)
  | .owner result => .owner (result.mapError Failure.unplaced)
  | .assigned result => .assigned (result.mapError Failure.unplaced)
  | .counted result => .counted (result.mapError Failure.unplaced)

variable {J J' : Type} [Journal J] [LawfulJournal J] [Journal J'] [LawfulJournal J']

/-- What a call has to write is acknowledged by both of two journals or by neither. -/
def Call.Agrees (journal : J) (other : J') : Call → Prop
  | .compact _ => ∀ lines,
    (Journal.replace journal lines).result.isOk = (Journal.replace other lines).result.isOk
  | _ => ∀ lines,
    (Journal.append journal lines).result.isOk = (Journal.append other lines).result.isOk

/-- The settings are the same, and the stores are twins. -/
structure Twin (a : Allocator J) (b : Allocator J') : Prop where
  settings : a.settings = b.settings
  store : a.store.Twin b.store

namespace Twin

variable {a : Allocator J} {b : Allocator J'} (h : a.Twin b)

include h

/-- The ledgers are the same. -/
theorem ledger :
  a.ledger = b.ledger
  := h.store.ledger

/-- The search along the spiral has the same result. -/
theorem nextCandidate_eq :
  a.nextCandidate = b.nextCandidate
  := by
  have hfree : a.isFree = b.isFree := by
    funext place
    rw [isFree, isFree, h.settings, h.ledger]
  rw [nextCandidate, nextCandidate, h.settings, hfree, h.ledger]

variable (ha : a.Tidy) (hb : b.Tidy)

include ha hb

/-- The same plots wait to be handed out again, in the same order. -/
theorem pool_eq :
  a.pool = b.pool
  := by
  rw [ha.coherent.pool, hb.coherent.pool, h.settings, h.ledger]

/-- The question for the numbers has the same answer. -/
theorem stats_eq :
  a.stats = b.stats
  := by
  rw [stats, stats, ha.coherent.query_eq, hb.coherent.query_eq, counts, counts, h.pool_eq ha hb,
    h.ledger, h.store.corrupt]

/-- Appending records has the same result and leaves the allocators twins. -/
theorem appendAll
    {α : Type} (value : α) (records : List Record)
    (hagree : ∀ lines, (Journal.append a.store.journal lines).result.isOk
      = (Journal.append b.store.journal lines).result.isOk) :
  ((a.store.appendAll records).result.map fun _ => value).mapError Failure.unplaced
      = ((b.store.appendAll records).result.map fun _ => value).mapError Failure.unplaced
    ∧ (a.withStore (a.store.appendAll records).state).Twin
      (b.withStore (b.store.appendAll records).state)
  := by
  have hsound := ha.coherent.consistent.sound
  have hsound' := hb.coherent.consistent.sound
  rw [← h.settings] at hsound'
  obtain ⟨hresult, hstore⟩ := h.store.appendAll hsound hsound' ha.clean hb.clean records hagree
  refine ⟨?_, h.settings, hstore⟩
  rcases exists_of_mapError_eq_mapError hresult with
    ⟨failure, failure', hfailed, hfailed', hsame⟩ | ⟨⟨⟨⟩⟩, hwritten, hwritten'⟩
  · rw [hfailed, hfailed']
    exact congrArg Except.error hsame
  · rw [hwritten, hwritten']

/-- Allocations are answered alike. -/
theorem allocate
    (hagree : ∀ lines, (Journal.append a.store.journal lines).result.isOk
      = (Journal.append b.store.journal lines).result.isOk) (name : String) (now : UInt64) :
  (a.allocate name now).result.mapError Failure.unplaced
      = (b.allocate name now).result.mapError Failure.unplaced
    ∧ (a.allocate name now).state.Twin (b.allocate name now).state
  := by
  have hpool := h.pool_eq ha hb
  have hnext := h.nextCandidate_eq
  rcases hqueue : a.pool.queue with _ | ⟨place, queue⟩
  · have hqueue' : b.pool.queue = [] := by
      rw [← hpool, hqueue]
    rcases ha.coherent.pooled.allocate_of_nil hqueue name now with
        ⟨failure, hfound, hresult, hstate⟩ | ⟨place, hfound, hresult, hstate⟩ <;>
      rcases hb.coherent.pooled.allocate_of_nil hqueue' name now with
        ⟨failure', hfound', hresult', hstate'⟩ | ⟨place', hfound', hresult', hstate'⟩ <;>
      rw [hfound, hfound'] at hnext <;> cases hnext <;> rw [hresult, hresult', hstate, hstate']
    · exact ⟨rfl, h⟩
    · exact h.appendAll ha hb place _ hagree
  · have hqueue' : b.pool.queue = place :: queue := by
      rw [← hpool, hqueue]
    obtain ⟨hresult, hstate⟩ := ha.coherent.pooled.allocate_of_cons hqueue name now
    obtain ⟨hresult', hstate'⟩ := hb.coherent.pooled.allocate_of_cons hqueue' name now
    rw [hresult, hresult', hstate, hstate']
    exact h.appendAll ha hb place _ hagree

/-- Releases are answered alike. -/
theorem release
    (hagree : ∀ lines, (Journal.append a.store.journal lines).result.isOk
      = (Journal.append b.store.journal lines).result.isOk) (place : Coord) (now : UInt64) :
  (a.release place now).result.mapError Failure.unplaced
      = (b.release place now).result.mapError Failure.unplaced
    ∧ (a.release place now).state.Twin (b.release place now).state
  := by
  have hledger := h.ledger
  rcases ha.coherent.pooled.release_cases place now with
      ⟨hheld, hresult, hstate⟩ | ⟨hheld, hresult, hstate⟩ <;>
    rcases hb.coherent.pooled.release_cases place now with
      ⟨hheld', hresult', hstate'⟩ | ⟨hheld', hresult', hstate'⟩ <;>
    rw [hledger, hheld'] at hheld <;> cases hheld <;> rw [hresult, hresult', hstate, hstate']
  · exact ⟨rfl, h⟩
  · exact h.appendAll ha hb true _ hagree

/-- Compactions are answered alike. -/
theorem compact
    (hagree : ∀ lines, (Journal.replace a.store.journal lines).result.isOk
      = (Journal.replace b.store.journal lines).result.isOk) (now : UInt64) :
  (a.compact now).result.mapError Failure.unplaced
      = (b.compact now).result.mapError Failure.unplaced
    ∧ (a.compact now).state.Twin (b.compact now).state
  := by
  obtain ⟨hresult, hstate⟩ := ha.coherent.pooled.compact_eq now
  obtain ⟨hresult', hstate'⟩ := hb.coherent.pooled.compact_eq now
  have hsound := ha.coherent.consistent.sound
  have hsound' := hb.coherent.consistent.sound
  rw [← h.settings] at hsound'
  obtain ⟨hcompacted, hstore⟩ := h.store.compact hsound hsound' now hagree
  rw [hresult, hresult', hstate, hstate']
  exact ⟨hcompacted, h.settings, hstore⟩

/-- Calls are answered alike if both journals acknowledge what has to be written or neither
does. -/
theorem answer
    {call : Call} (hagree : call.Agrees a.store.journal b.store.journal) :
  (a.answer call).1.unplaced = (b.answer call).1.unplaced
    ∧ (a.answer call).2.Twin (b.answer call).2
  := by
  cases call with
  | allocate name now =>
    obtain ⟨hresult, hstate⟩ := h.allocate ha hb hagree name now
    exact ⟨congrArg Answer.allocated hresult, hstate⟩
  | release place now =>
    obtain ⟨hresult, hstate⟩ := h.release ha hb hagree place now
    exact ⟨congrArg Answer.released hresult, hstate⟩
  | compact now =>
    obtain ⟨hresult, hstate⟩ := h.compact ha hb hagree now
    exact ⟨congrArg Answer.compacted hresult, hstate⟩
  | ownerOf place =>
    refine ⟨congrArg (Answer.unplaced ∘ Answer.owner) ?_, h⟩
    rw [ownerOf, ownerOf, ha.coherent.query_eq, hb.coherent.query_eq, h.ledger]
  | isAssigned place =>
    refine ⟨congrArg (Answer.unplaced ∘ Answer.assigned) ?_, h⟩
    rw [isAssigned, isAssigned, ha.coherent.query_eq, hb.coherent.query_eq, h.ledger]
  | stats => exact ⟨congrArg (Answer.unplaced ∘ Answer.counted) (h.stats_eq ha hb), h⟩

end Twin

/-- The allocators of journals that hold the same lines are twins. -/
theorem twin_ofJournal
    {journal : J} {other : J'} (hheld : held journal = held other) (settings : Settings) :
  (ofJournal settings journal).Twin (ofJournal settings other)
  := by
  refine ⟨rfl, ?_, ?_, hheld⟩
  · change (Ledger.replay (held journal)).ledger = (Ledger.replay (held other)).ledger
    rw [hheld]
  · change (Ledger.replay (held journal)).skips.length = (Ledger.replay (held other)).skips.length
    rw [hheld]

/-- Opening twins anew has the same result and leaves them twins. -/
theorem Twin.reopen
    [ReopenableJournal J] [ReopenableJournal J'] {a : Allocator J} {b : Allocator J'}
    (h : a.Twin b) (ha : a.Tidy) (hb : b.Tidy) (spacing radius : Blocks) :
  (a.reopen spacing radius).result = (b.reopen spacing radius).result
    ∧ (a.reopen spacing radius).state.Twin (b.reopen spacing radius).state
  := by
  have hsound := ha.coherent.consistent.sound
  have hsound' := hb.coherent.consistent.sound
  unfold Allocator.reopen
  rw [← h.settings] at hsound' ⊢
  rcases hvalid : ({ spacing, radius, storageDir := a.settings.storageDir } : Config).validate
    with failure | settings
  · obtain ⟨hresult, hstate⟩ := ReopenableJournal.reopen_of_error (a := a) hvalid
    obtain ⟨hresult', hstate'⟩ := ReopenableJournal.reopen_of_error (a := b) hvalid
    rw [hresult, hresult', hstate, hstate']
    exact ⟨rfl, h⟩
  · obtain ⟨hresult, hstate⟩ := ReopenableJournal.reopen_of_ok hsound hvalid
    obtain ⟨hresult', hstate'⟩ := ReopenableJournal.reopen_of_ok hsound' hvalid
    rw [hresult, hresult', hstate, hstate']
    refine ⟨rfl, twin_ofJournal ?_ settings⟩
    rw [ReopenableJournal.held_fresh, ReopenableJournal.held_fresh, h.store.lines]

/-! ### Refusals -/

/-- A journal in a file is going to refuse what a call has to write: the device fails, or no draft
of a replacement can be made. -/
def refuses (journal : FileJournal) : Call → Bool
  | .compact _ => !(journal.replace []).result.isOk
  | _ => journal.fault.isSome

/-- A journal in memory that is told to refuse when a journal in a file refuses agrees with it. -/
theorem agrees_refuses
    {directory : String} {journal : FileJournal} (h : journal.Sound directory)
    (hclean : journal.Clean) (call : Call) (lines : List String) :
  call.Agrees journal ({ lines, refusing := refuses journal call } : MemoryJournal)
  := by
  have happend : ∀ new, (Journal.append journal new).result.isOk
      = (MemoryJournal.append { lines, refusing := journal.fault.isSome } new).result.isOk := by
    intro new
    change (journal.append new).result.isOk = _
    rw [h.isOk_append hclean]
    rcases journal.fault with _ | fault <;> rfl
  cases call with
  | compact now =>
    intro new
    change (journal.replace new).result.isOk = (MemoryJournal.replace
      { lines, refusing := !(journal.replace []).result.isOk } new).result.isOk
    rw [FileJournal.isOk_replace h.calm new []]
    rcases (journal.replace []).result with fault | ⟨⟨⟩⟩ <;> rfl
  | allocate | release | ownerOf | isAssigned | stats => exact happend

/-- If the draft of a replacement can be made, it can be made after a step. -/
theorem Coherent.replaceable_step
    {a : Allocator FileJournal} (h : a.Coherent) (hreplaceable : a.store.journal.Replaceable)
    (event : Event FileJournal) :
  (a.step event).store.journal.Replaceable
  := by
  have hsame : ∀ remnant fault mishap,
      { a.store.journal with remnant := remnant, fault := fault, mishap := mishap }.Replaceable :=
    hreplaceable.of_entry?_eq rfl
  have hsound : a.store.journal.Sound a.settings.storageDir := h.consistent.sound
  cases event with
  | call call =>
    change (a.answer call).2.store.journal.Replaceable
    rcases h.pooled.answer_cases call with hstate | ⟨records, -, -, -, hstate⟩ | ⟨now, hstate⟩
    · rw [hstate]
      exact hreplaceable
    · rw [hstate]
      change (a.store.appendAll records).state.journal.Replaceable
      rcases a.store.journal_appendAll records with hjournal | hjournal
      · rw [hjournal]
        exact hreplaceable
      · rw [hjournal]
        exact hreplaceable.append _
    · rw [hstate]
      change (a.store.compact now).state.journal.Replaceable
      rw [a.store.journal_compact now]
      exact (hreplaceable.replace hsound.linked hsound.calm _).2
  | hazard fault => exact hsame a.store.journal.remnant (some fault) a.store.journal.mishap
  | reopen spacing radius =>
    change (a.reopen spacing radius).state.store.journal.Replaceable
    rcases h.reopen_cases spacing radius with ⟨settings, -, hstate⟩ | hstate
    · rw [hstate]
      exact hsame none none none
    · rw [hstate]
      exact hreplaceable

/-- If the draft of a replacement can be made, it can be made after a run. -/
theorem Coherent.replaceable_run
    {a : Allocator FileJournal} (h : a.Coherent) (hreplaceable : a.store.journal.Replaceable)
    (events : List (Event FileJournal)) :
  (a.run events).store.journal.Replaceable
  := by
  refine run_induct (P := fun b => FileJournal.Replaceable b.store.journal) hreplaceable ?_
  intro before event after _ hbefore
  exact (h.run before).replaceable_step hbefore event

/-! ### Runs -/

/-- The run of an allocator in memory that goes with a run of an allocator on a disk: before each
call the journal in memory is told to refuse what the journal on the disk is going to refuse. -/
def mirror (a : Allocator FileJournal) : List (Event FileJournal) → List (Event MemoryJournal)
  | [] => []
  | .call call :: events =>
    .hazard (refuses a.store.journal call) :: .call call :: mirror (a.answer call).2 events
  | .hazard fault :: events => mirror (a.befall fault) events
  | .reopen spacing radius :: events =>
    .reopen spacing radius :: mirror (a.reopen spacing radius).state events

/-- Twins stay twins in a run on a disk and the run in memory that goes with it, and all calls are
answered alike. -/
theorem Twin.run
    {a : Allocator FileJournal} {b : Allocator MemoryJournal} (h : a.Twin b) (ha : a.Tidy)
    (hb : b.Tidy) {events : List (Event FileJournal)} (hmild : ∀ event ∈ events, event.Mild) :
  (a.answers events).map Answer.unplaced = (b.answers (a.mirror events)).map Answer.unplaced
    ∧ (a.run events).Twin (b.run (a.mirror events))
    ∧ (a.run events).Tidy ∧ (b.run (a.mirror events)).Tidy
  := by
  induction events generalizing a b with
  | nil => exact ⟨rfl, h, ha, hb⟩
  | cons event events ih =>
    rw [List.forall_mem_cons] at hmild
    have hnext := ha.step hmild.1
    cases event with
    | call call =>
      let told := b.befall (refuses a.store.journal call)
      have htwin : a.Twin told := ⟨h.settings, h.store.ledger, h.store.corrupt, h.store.lines⟩
      have htold : told.Tidy :=
        hb.step (show Event.Mild (.hazard (refuses a.store.journal call)) from trivial)
      have hcalled : (told.answer call).2.Tidy :=
        htold.step (show Event.Mild (.call call) from trivial)
      obtain ⟨hanswer, hstate⟩ := htwin.answer ha htold
        (agrees_refuses ha.coherent.consistent.sound ha.clean call b.store.journal.lines)
      obtain ⟨hanswers, hrun⟩ := ih hstate hnext hcalled hmild.2
      exact ⟨List.cons_eq_cons.2 ⟨hanswer, hanswers⟩, hrun⟩
    | hazard fault =>
      have htwin : (a.befall fault).Twin b :=
        ⟨h.settings, h.store.ledger, h.store.corrupt, h.store.lines⟩
      exact ih htwin hnext hb hmild.2
    | reopen spacing radius =>
      have hopened : (b.reopen spacing radius).state.Tidy :=
        hb.step (show Event.Mild (.reopen spacing radius) from trivial)
      exact ih (h.reopen ha hb spacing radius).2 hnext hopened hmild.2

/-- A log in memory stands in for a log in a file.  Whatever the file holds when the allocator is
opened, if only its last byte is not a carriage return, there is an allocator on a journal in memory
with the lines of the file that follows it in every run in which no bytes of a failed append stay
behind: when the journal in memory is told to refuse just when an append in the file is cut short
and cut back, or a replacement cannot be made, all calls are answered alike up to the place and the
cause of a fault, and after each step the numbers, the lines, the reservations, the pool and the
result of opening anew are the same.  If a replacement can be made at first, it can be made at any
time, so that nothing but a failure of the device has to be mirrored. -/
theorem memory_stands_in
    {config : Config} {a : Allocator FileJournal} (h : ReopenableJournal.Started config a)
    {events : List (Event FileJournal)} (hmild : ∀ event ∈ events, event.Mild) :
  ∃ lines b notices, a.store.journal.lines = .ok lines
    ∧ load a.settings ({ lines } : MemoryJournal) = .ok (b, notices) ∧
    let file := a.run events
    let memory := b.run (a.mirror events)
    (a.answers events).map Answer.unplaced = (b.answers (a.mirror events)).map Answer.unplaced
      ∧ file.stats = memory.stats
      ∧ file.store.journal.lines = .ok memory.store.journal.lines
      ∧ (file.ledger = memory.ledger ∧ file.store.corrupt = memory.store.corrupt
        ∧ file.pool = memory.pool ∧ file.settings = memory.settings)
      ∧ (∀ spacing radius,
        (file.reopen spacing radius).result = (memory.reopen spacing radius).result)
      ∧ (a.store.journal.Replaceable →
        ∀ now lines, (file.store.journal.replace lines).result = .ok ()
          ∧ refuses file.store.journal (.compact now) = false)
  := by
  obtain ⟨settings, journal, -, hsound, hfresh, heq⟩ := FileJournal.eq_of_started h
  obtain ⟨hcoherent, hclean⟩ := ReopenableJournal.coherent_of_started h
  have ha : a.Tidy := ⟨hcoherent, hclean⟩
  subst heq
  let held : MemoryJournal := { lines := Text.readLines journal.content }
  have hb : (ofJournal settings held).Tidy := ⟨coherent_ofJournal trivial, trivial⟩
  obtain ⟨notices, hload⟩ := Allocator.load_eq (held.sound "") settings
  have htwin : (ofJournal settings journal).Twin (ofJournal settings held) := by
    apply twin_ofJournal
    rfl
  obtain ⟨hanswers, hrun, ha', hb'⟩ := htwin.run ha hb hmild
  have hsound' : FileJournal.Sound _ ((ofJournal settings journal).run events).store.journal :=
    ha'.coherent.consistent.sound
  refine ⟨held.lines, ofJournal settings held, notices, hsound.linked.lines_eq, hload, hanswers,
    hrun.stats_eq ha' hb', ?_, ⟨hrun.ledger, hrun.store.corrupt, hrun.pool_eq ha' hb',
      hrun.settings⟩, fun spacing radius => (hrun.reopen ha' hb' spacing radius).1, ?_⟩
  · rw [hsound'.linked.lines_eq]
    exact congrArg Except.ok hrun.store.lines
  · intro hreplaceable now lines
    have hstill := hcoherent.replaceable_run hreplaceable events
    refine ⟨(hstill.replace hsound'.linked hsound'.calm lines).1, ?_⟩
    rw [refuses, (hstill.replace hsound'.linked hsound'.calm []).1]
    rfl

/-- The file ends within a character of an unfinished line.  A release of which the device stores
five bytes is cut back, and refused in memory; the next one is acknowledged by both. -/
theorem memory_stands_in_torn :
  let settings : Settings :=
    { spacing := ⟨10, by decide, by decide⟩, exclusion := ⟨0⟩, storageDir := "." }
  let place : Coord := ⟨10, 0, by decide, by decide⟩
  let bytes := Text.encodeString "1;10;0;ASSIGN;ann\n2;10;0;ORPH" ++ [0xC3]
  let empty := FileJournal.holding []
  let a := ofJournal settings { empty with disk := empty.disk.edit 0 bytes }
  let fault : ShortWrite := ⟨5, false⟩
  let events : List (Event FileJournal) :=
    [.hazard fault, .call (.release place 3), .call (.release place 4)]
  let b : Allocator MemoryJournal :=
    ofJournal settings { lines := ["1;10;0;ASSIGN;ann", "2;10;0;ORPH\uFFFD"] }
  (a.answers events).map Answer.unplaced = (b.answers (a.mirror events)).map Answer.unplaced
    ∧ (a.run events).store.journal.lines = .ok (b.run (a.mirror events)).store.journal.lines
    ∧ (a.run events).store.journal.lines
      = .ok ["1;10;0;ASSIGN;ann", "2;10;0;ORPH\uFFFD", "4;10;0;ORPHAN;"]
  := by
  intro settings place bytes empty a fault events b
  let config : Config := { spacing := ⟨10, by decide⟩, radius := ⟨0, by decide⟩, storageDir := "." }
  have hvalid : config.validate = .ok settings := Config.validate_of_no_exclusion (by decide) "."
  have hlinked : a.store.journal.Linked "." :=
    (FileJournal.sound_holding (List.forall_mem_nil _)).linked.edit 0 bytes
  have hterminable : Text.Terminable a.store.journal.content := by
    decide +kernel
  have hread : Text.readLines a.store.journal.content
      = ["1;10;0;ASSIGN;ann", "2;10;0;ORPH\uFFFD"] := by
    decide +kernel
  have hwritten : (a.run events).store.journal.lines
      = .ok ["1;10;0;ASSIGN;ann", "2;10;0;ORPH\uFFFD", "4;10;0;ORPHAN;"] := by
    decide +kernel
  have hmild : ∀ event ∈ events, event.Mild := by
    simp only [events, List.forall_mem_cons]
    exact ⟨rfl, trivial, trivial, List.forall_mem_nil _⟩
  obtain ⟨opening, hopen⟩ := hlinked.openFile_eq hvalid
  have hstarted : FileJournal.Started config a :=
    ⟨_, _, opening, hlinked.wellFormed, hopen, hterminable⟩
  obtain ⟨lines, memory, notices, hlines, hload, hanswers, -, hsame, -⟩ :=
    memory_stands_in hstarted hmild
  obtain rfl : _ = lines := hread.symm.trans (Except.ok.inj (hlinked.lines_eq.symm.trans hlines))
  obtain ⟨notices', hload'⟩ := Allocator.load_eq
    (MemoryJournal.sound "" { lines := ["1;10;0;ASSIGN;ann", "2;10;0;ORPH\uFFFD"] }) settings
  obtain ⟨rfl, -⟩ := Prod.mk.inj (Except.ok.inj (hload'.symm.trans hload))
  exact ⟨hanswers, hsame, hwritten⟩

end Allocator

end IslandPlots
