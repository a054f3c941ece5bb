import IslandPlots.Proofs.Allocator.Reuse
import IslandPlots.Proofs.Journal.Failing

/-!
# A failed operation never happened

A call that fails and leaves nothing behind leaves the allocator as it was, up to the failure
of the device that it has met (`Allocator.Pooled.answer_of_failure`).  So nobody can tell later
that it was made, and an allocation that is tried again gets the plot that the failed one would
have got (`Allocator.failed_call_erased`).
-/

namespace IslandPlots

open RestoredJournal (Remains Pending calmed stored)

variable {J : Type} [Journal J] [RestoredJournal J]

/-- A failure is not one of a write that has left something in the journal. -/
def Failure.LeavesNothing (failure : Failure) (journal : J) : Prop :=
  ∀ location fault, failure = .storage location fault → ¬ Remains fault journal

/-- A failure of the journal leaves nothing if its fault has left nothing. -/
theorem Failure.leavesNothing_storage
    {location : String} {fault : JournalFault} {journal : J} (h : ¬ Remains fault journal) :
  (Failure.storage location fault).LeavesNothing journal
  := by
  intro location' fault' heq
  obtain ⟨-, rfl⟩ := Failure.storage.inj heq
  exact h

namespace Store

/-- A failed append that leaves nothing behind leaves the store. -/
theorem appendAll_of_failure
    {store : Store J} {records : List Record} {failure : Failure}
    (h : (store.appendAll records).result = .error failure)
    (hnothing : failure.LeavesNothing (store.appendAll records).state.journal) :
  (store.appendAll records).state = store
    ∨ Pending store.journal
      ∧ (store.appendAll records).state = { store with journal := calmed store.journal }
  := by
  rcases hcheck : Ledger.checkAll store.ledger.standing? records with refused | ⟨⟨⟩⟩
  · left
    unfold appendAll
    rw [hcheck]
    rfl
  · rw [appendAll_of_accepts hcheck] at h hnothing ⊢
    dsimp only at h hnothing ⊢
    rcases hwritten : (Journal.append store.journal (records.map Record.line)).result
      with fault | ⟨⟨⟩⟩
    · rw [hwritten] at h hnothing
      cases h
      rcases RestoredJournal.append_error hwritten (hnothing _ _ rfl) with
        hstate | ⟨hpending, hstate⟩
      · left
        rw [hstate]
        rfl
      · right
        rw [hstate]
        exact ⟨hpending, rfl⟩
    · rw [hwritten] at h
      cases h

/-- A failed compaction that leaves nothing behind leaves the store. -/
theorem compact_of_failure
    {store : Store J} {now : UInt64} {failure : Failure}
    (h : (store.compact now).result = .error failure)
    (hnothing : failure.LeavesNothing (store.compact now).state.journal) :
  (store.compact now).state = store
  := by
  unfold compact at h hnothing ⊢
  dsimp only at h hnothing ⊢
  rcases hwritten : (Journal.replace store.journal
    ((store.ledger.snapshot now).map Record.line)).result with fault | ⟨⟨⟩⟩
  · rw [hwritten] at h hnothing
    cases h
    have hstate := RestoredJournal.replace_error hwritten (hnothing _ _ rfl)
    rw [hstate]
    rfl
  · rw [hwritten] at h
    cases h

end Store

namespace Allocator

/-- The error of a result. -/
def error? {α : Type} : Except Failure α → Option Failure
  | .error failure => some failure
  | .ok _ => none

/-- A result with an error is that error. -/
theorem eq_of_error?
    {α : Type} {result : Except Failure α} {failure : Failure} (h : error? result = some failure) :
  result = .error failure
  := by
  rcases result with failure' | value
  · cases h
    rfl
  · cases h

/-- Why a call failed; `none` when it did not. -/
def Answer.failure? : Answer → Option Failure
  | .allocated result => error? result
  | .released result => error? result
  | .compacted result => error? result
  | .owner result => error? result
  | .assigned result => error? result
  | .counted result => error? result

namespace Pooled

variable {a : Allocator J} (h : a.Pooled)

include h

omit [RestoredJournal J] in
/-- An allocator has the pool of its ledger also with another journal. -/
theorem onJournal
    (journal : J) :
  (a.onJournal journal).Pooled
  := h.move (.journal journal)

omit [Journal J] [RestoredJournal J] in
/-- Another journal does not change the pool. -/
theorem withStore_journal
    (journal : J) :
  a.withStore { a.store with journal := journal } = a.onJournal journal
  := congrArg (Allocator.onJournal · journal) h.withStore_store

/-- What a failed append that leaves nothing behind leaves. -/
theorem withStore_of_failure
    {α : Type} {records : List Record} {value : α} {failure : Failure}
    (hresult : (a.store.appendAll records).result.map (fun _ => value) = .error failure)
    (hnothing : failure.LeavesNothing (a.store.appendAll records).state.journal) :
  a.withStore (a.store.appendAll records).state = a
    ∨ Pending a.store.journal
      ∧ a.withStore (a.store.appendAll records).state = a.onJournal (calmed a.store.journal)
  := by
  have herror : (a.store.appendAll records).result = .error failure := by
    rcases hwritten : (a.store.appendAll records).result with failure' | ⟨⟨⟩⟩
    · rw [hwritten] at hresult
      cases hresult
      rfl
    · rw [hwritten] at hresult
      cases hresult
  rcases Store.appendAll_of_failure herror hnothing with hstate | ⟨hpending, hstate⟩
  · left
    rw [hstate]
    exact h.withStore_store
  · right
    rw [hstate]
    exact ⟨hpending, h.withStore_journal _⟩

/-- A call that fails and leaves nothing behind leaves the allocator as it was, up to the
failure of the device that it has met. -/
theorem answer_of_failure
    {call : Call} {failure : Failure} (hfailed : (a.answer call).1.failure? = some failure)
    (hnothing : failure.LeavesNothing (a.answer call).2.store.journal) :
  (a.answer call).2 = a
    ∨ Pending a.store.journal ∧ (a.answer call).2 = a.onJournal (calmed a.store.journal)
  := by
  cases call with
  | allocate name now =>
    have herror : (a.allocate name now).result = .error failure := eq_of_error? hfailed
    rcases h.allocate_cases name now with
      ⟨-, -, -, hstate⟩ | ⟨place, moves, -, -, -, -, hresult, hstate⟩
    · exact .inl hstate
    · change failure.LeavesNothing (a.allocate name now).state.store.journal at hnothing
      change (a.allocate name now).state = a ∨ _ ∧ (a.allocate name now).state = _
      rw [hstate] at hnothing ⊢
      exact h.withStore_of_failure (hresult.symm.trans herror) hnothing
  | release place now =>
    have herror : (a.release place now).result = .error failure := eq_of_error? hfailed
    rcases h.release_cases place now with ⟨-, -, hstate⟩ | ⟨-, hresult, hstate⟩
    · exact .inl hstate
    · change failure.LeavesNothing (a.release place now).state.store.journal at hnothing
      change (a.release place now).state = a ∨ _ ∧ (a.release place now).state = _
      rw [hstate] at hnothing ⊢
      exact h.withStore_of_failure (hresult.symm.trans herror) hnothing
  | compact now =>
    have herror : (a.compact now).result = .error failure := eq_of_error? hfailed
    obtain ⟨hresult, hstate⟩ := h.compact_eq now
    change failure.LeavesNothing (a.compact now).state.store.journal at hnothing
    left
    change (a.compact now).state = a
    rw [hstate] at hnothing ⊢
    rw [Store.compact_of_failure (hresult.symm.trans herror) hnothing]
    exact h.withStore_store
  | ownerOf | isAssigned | stats => exact .inl rfl

omit [RestoredJournal J] in
/-- A release fails with the fault with which the journal refuses its record. -/
theorem release_of_error
    {place : Coord} {now : UInt64} {fault : JournalFault}
    (hassigned : a.ledger.isAssigned place = true)
    (hwritten : (Journal.append a.store.journal [(Record.orphan place now).line]).result
      = .error fault) :
  let written := Journal.append a.store.journal [(Record.orphan place now).line]
  (a.release place now).result = .error (.storage (Journal.location written.state) fault)
    ∧ (a.release place now).state.store.journal = written.state
  := by
  have hassigned' : a.store.ledger.isAssigned place = true := hassigned
  have haccepts : a.store.ledger.Accepts [.orphan place now] := accepts_of_isAssigned hassigned now
  unfold release Store.markOrphan Store.append
  rw [if_neg h.not_poisoned, if_pos hassigned', Store.appendAll_of_accepts haccepts]
  simp only [List.map_cons, List.map_nil, hwritten]
  exact ⟨rfl, rfl⟩

omit [RestoredJournal J] in
/-- An allocation gets the plot that another one got which began in the same state, on another
journal perhaps, or its journal refuses. -/
theorem allocate_again
    {device : J} {name : String} {now : UInt64} {place : Coord}
    (hallocated : ((a.onJournal device).allocate name now).result = .ok place)
    (device' : J) (name' : String) (now' : UInt64) :
  ((a.onJournal device').allocate name' now').result = .ok place
    ∨ ∃ lines fault, (Journal.append device' lines).result = .error fault
      ∧ ((a.onJournal device').allocate name' now').result
        = .error (.storage (Journal.location (Journal.append device' lines).state) fault)
  := by
  have hoffer : a.offer = .ok place := by
    rcases (h.onJournal device).allocate_cases name now with
      ⟨failure, -, hresult, -⟩ | ⟨found, moves, hoffer, -, -, -, hresult, -⟩
    · cases hresult.symm.trans hallocated
    · rw [hresult] at hallocated
      rcases hwritten : ((a.onJournal device).store.appendAll
        (.assign found (if name = "" then none else some name) now :: moves)).result with f | ⟨⟨⟩⟩
      · rw [hwritten] at hallocated
        cases hallocated
      · rw [hwritten] at hallocated
        cases hallocated
        exact hoffer
  rcases (h.onJournal device').allocate_cases name' now' with
    ⟨failure, hnone, -, -⟩ | ⟨found, moves, hoffer', hfree, hmoves, -, hresult, -⟩
  · cases hnone.symm.trans hoffer
  · obtain rfl : found = place := Except.ok.inj (hoffer'.symm.trans hoffer)
    have haccepts := accepts_of_isFree hfree (if name' = "" then none else some name') now'
      fun r hr => (hmoves r hr).2
    rw [hresult, Store.appendAll_of_accepts haccepts]
    dsimp only
    rcases hwritten : (Journal.append (a.onJournal device').store.journal
      ((Record.assign found (if name' = "" then none else some name') now' :: moves).map
        Record.line)).result with fault | ⟨⟨⟩⟩
    · exact .inr ⟨_, fault, hwritten, rfl⟩
    · exact .inl rfl

end Pooled

/-! ### Erasing a call from a run -/

omit [RestoredJournal J]

/-- The answers to the calls of a run. -/
def replies (a : Allocator J) : List (Move J) → List Answer
  | [] => []
  | .call call :: moves => (a.answer call).1 :: replies (a.answer call).2 moves
  | .journal journal :: moves => replies (a.onJournal journal) moves

/-- The answers to the calls of a run that goes on. -/
@[simp]
theorem replies_append
    (a : Allocator J) (before after : List (Move J)) :
  a.replies (before ++ after) = a.replies before ++ (a.play before).replies after
  := by
  induction before generalizing a with
  | nil => rfl
  | cons m before ih =>
    cases m with
    | call call => exact congrArg (_ :: ·) (ih _)
    | journal journal => exact ih _

variable [RestoredJournal J]

/-- A call that fails and leaves nothing behind never happened, whatever was called before and
whatever the journal did.  What the journal has stored and the lines in it, the reservations,
the cursor, the numbers and the pool with its order are as before.  Erasing the call from the
run, and with it the failure of the device if it has met one, changes no later answer and no
later state.  And an allocation that is tried again gets the plot that the failed one would
have got on a journal that acknowledges it. -/
theorem failed_call_erased
    {settings : Settings} {journal : J} {a : Allocator J} {notices : List Notice}
    (h : load settings journal = .ok (a, notices)) (moves : List (Move J)) {call : Call}
    {failure : Failure} (hfailed : ((a.play moves).answer call).1.failure? = some failure)
    (hnothing : failure.LeavesNothing ((a.play moves).answer call).2.store.journal) :
  let before := a.play moves
  let after := (before.answer call).2
  (stored after.store.journal = stored before.store.journal
      ∧ Journal.lines after.store.journal = Journal.lines before.store.journal
      ∧ after.ledger = before.ledger ∧ after.store.corrupt = before.store.corrupt
      ∧ after.pool = before.pool)
    ∧ (∃ instead : List (Move J), (instead = []
          ∨ Pending before.store.journal ∧ instead = [.journal (calmed before.store.journal)])
        ∧ ∀ later, ∃ rest,
          a.replies (moves ++ .call call :: later)
              = a.replies moves ++ (before.answer call).1 :: rest
            ∧ a.replies (moves ++ (instead ++ later)) = a.replies moves ++ rest
            ∧ a.play (moves ++ .call call :: later) = a.play (moves ++ (instead ++ later)))
    ∧ ∀ name now, call = .allocate name now → ∀ device place,
        ((before.onJournal device).allocate name now).result = .ok place →
        ∀ device' name' now',
          let retried := (after.onJournal device').allocate name' now'
          retried.result = .ok place
            ∨ ∃ lines fault, (Journal.append device' lines).result = .error fault
              ∧ retried.result
                = .error (.storage (Journal.location (Journal.append device' lines).state) fault)
  := by
  intro before after
  have hbefore : before.Pooled := (of_load h).1.play moves
  have hstate : after = before
      ∨ Pending before.store.journal ∧ after = before.onJournal (calmed before.store.journal) :=
    hbefore.answer_of_failure hfailed hnothing
  have hinstead : ∃ instead : List (Move J), (instead = []
      ∨ Pending before.store.journal ∧ instead = [.journal (calmed before.store.journal)])
      ∧ ∀ later, before.replies (instead ++ later) = after.replies later
        ∧ before.play (instead ++ later) = after.play later := by
    rcases hstate with heq | ⟨hpending, heq⟩
    · rw [heq]
      exact ⟨[], .inl rfl, fun later => ⟨rfl, rfl⟩⟩
    · rw [heq]
      exact ⟨_, .inr ⟨hpending, rfl⟩, fun later => ⟨rfl, rfl⟩⟩
  obtain ⟨instead, hcases, hsame⟩ := hinstead
  refine ⟨?_, ⟨instead, hcases, fun later => ⟨after.replies later, ?_, ?_, ?_⟩⟩, ?_⟩
  · rcases hstate with heq | ⟨-, heq⟩
    · rw [heq]
      exact ⟨rfl, rfl, rfl, rfl, rfl⟩
    · rw [heq]
      exact ⟨RestoredJournal.stored_calmed, RestoredJournal.lines_calmed, rfl, rfl, rfl⟩
  · exact a.replies_append moves _
  · rw [replies_append]
    exact congrArg _ (hsame later).1
  · rw [play_append, play_append]
    exact (hsame later).2.symm
  · intro name now _ device place hallocated device' name' now'
    have hsame : after.onJournal device' = before.onJournal device' := by
      rcases hstate with heq | ⟨-, heq⟩ <;> rw [heq]
      rfl
    rw [hsame]
    exact hbefore.allocate_again hallocated device' name' now'

/-- A release of which the device stores some bytes and then fails never happened, and the plot
stays with its owner. -/
theorem failed_call_erased_holding :
  let settings : Settings :=
    { spacing := ⟨10, by decide, by decide⟩, exclusion := ⟨0⟩, storageDir := "." }
  let place : Coord := ⟨10, 0, by decide, by decide⟩
  let journal := FileJournal.holding ([Record.assign place (some "ann") 1].map Record.line)
  let failing : FileJournal := { journal with fault := some ⟨5, false⟩ }
  ∃ a notices failure, load settings journal = .ok (a, notices) ∧
    let before := a.play [.journal failing]
    let after := (before.answer (.release place 2)).2
    (before.answer (.release place 2)).1.failure? = some failure
      ∧ after.store.journal.disk = before.store.journal.disk
      ∧ after.ledger = before.ledger ∧ after.pool = before.pool
  := by
  intro settings place journal failing
  have hbuilt : ∀ r ∈ [Record.assign place (some "ann") 1], r.Built := by
    rw [List.forall_mem_singleton]
    exact .assign ..
  have hlines := Store.unbroken_map_line [Record.assign place (some "ann") 1]
  have hsound : journal.Sound "." := FileJournal.sound_holding hlines
  have hfailing : failing.Sound "." := hsound.of_same none (some ⟨5, false⟩)
  have hheld : LawfulJournal.held journal = [Record.assign place (some "ann") 1].map Record.line :=
    Text.readLines_writeLines hlines
  obtain ⟨a, notices, hload, hassigned⟩ : ∃ a notices,
      load settings journal = .ok (a, notices) ∧ a.ledger.isAssigned place = true := by
    obtain ⟨notices, hload⟩ := Allocator.load_eq hsound.lawful settings
    rw [ofJournal_of_held hheld hbuilt rfl] at hload
    exact ⟨_, notices, hload, rfl⟩
  have hpooled : (a.onJournal failing).Pooled := (of_load hload).1.onJournal failing
  have happend : Journal.append failing [(Record.orphan place 2).line] = .fail _ _ :=
    hfailing.append_eq rfl [(Record.orphan place 2).line]
  obtain ⟨hresult, hstate⟩ :=
    hpooled.release_of_error hassigned (congrArg Outcome.result happend)
  have hcalm : ((a.play [.journal failing]).answer (.release place 2)).2.store.journal
      = { failing with fault := none } :=
    hstate.trans (congrArg Outcome.state happend)
  obtain ⟨failure, hfailed, hnothing⟩ : ∃ failure,
      ((a.play [.journal failing]).answer (.release place 2)).1.failure? = some failure
        ∧ failure.LeavesNothing
          ((a.play [.journal failing]).answer (.release place 2)).2.store.journal := by
    refine ⟨_, congrArg error? hresult, Failure.leavesNothing_storage ?_⟩
    rw [hcalm]
    exact fun hremains => hremains rfl
  obtain ⟨⟨hstored, -, hledger, -, hpool⟩, -⟩ :=
    failed_call_erased hload [.journal failing] hfailed hnothing
  exact ⟨a, notices, failure, hload, hfailed, hstored, hledger, hpool⟩

end Allocator

end IslandPlots
