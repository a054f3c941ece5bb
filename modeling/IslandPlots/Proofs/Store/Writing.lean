import IslandPlots.Proofs.Ledger.Batch
import IslandPlots.Proofs.Record.RoundTrip
import IslandPlots.Store

/-!
# What writing does to the ledger

Whatever the journal does, a failed operation can change nothing but the journal, and one that
succeeds takes its records into the ledger (`Store.appendAll_cases`, `Store.compact_cases`).
-/

namespace IslandPlots

namespace Store

/-- The lines of records are unbroken. -/
theorem unbroken_map_line (records : List Record) :
  ∀ line ∈ records.map Record.line, Text.Unbroken line
  := by
  intro line hline
  obtain ⟨r, -, rfl⟩ := List.mem_map.1 hline
  exact r.unbroken_line

variable {J : Type} [Journal J]

/-- Records that pass the check are appended to the journal, and taken in if it acknowledges
them. -/
theorem appendAll_of_accepts
    {store : Store J} {records : List Record} (h : store.ledger.Accepts records) :
  store.appendAll records =
    let written := Journal.append store.journal (records.map Record.line)
    match written.result with
    | .error fault =>
      .fail (.storage (Journal.location written.state) fault)
        { store with journal := written.state } written.notices
    | .ok () =>
      .ok () { store with journal := written.state, ledger := store.ledger.applyAll records }
        written.notices
  := by
  unfold Ledger.Accepts at h
  unfold appendAll
  rewrite [h]
  rfl

/-- Records that pass the check are not taken in when the journal does not append them. -/
theorem appendAll_of_fail
    {store : Store J} {records : List Record} (haccepts : store.ledger.Accepts records)
    {fault : JournalFault} {journal : J} {notices : List Notice}
    (h : Journal.append store.journal (records.map Record.line) = .fail fault journal notices) :
  store.appendAll records
    = .fail (.storage (Journal.location journal) fault) { store with journal := journal } notices
  := by
  rw [appendAll_of_accepts haccepts]
  simp only [h]
  rfl

/-- An append fails and leaves everything but the journal, or its records pass the check and
are taken in. -/
theorem appendAll_cases
    (store : Store J) (records : List Record) :
  (∃ failure journal, (store.appendAll records).result = .error failure
      ∧ (store.appendAll records).state = { store with journal := journal })
    ∨ (store.ledger.Accepts records ∧ (store.appendAll records).result = .ok ()
      ∧ ∃ journal, (store.appendAll records).state
        = { store with journal := journal, ledger := store.ledger.applyAll records })
  := by
  rcases hcheck : Ledger.checkAll store.ledger.standing? records with refused | ⟨⟨⟩⟩
  · left
    unfold appendAll
    rw [hcheck]
    exact ⟨_, _, rfl, rfl⟩
  · rw [appendAll_of_accepts hcheck]
    dsimp only
    rcases (Journal.append store.journal (records.map Record.line)).result with fault | ⟨⟨⟩⟩
    · exact .inl ⟨_, _, rfl, rfl⟩
    · exact .inr ⟨hcheck, rfl, _, rfl⟩

/-- An append leaves the journal or appends lines to it. -/
theorem journal_appendAll
    (store : Store J) (records : List Record) :
  (store.appendAll records).state.journal = store.journal
    ∨ (store.appendAll records).state.journal
      = (Journal.append store.journal (records.map Record.line)).state
  := by
  unfold appendAll
  split
  · exact .inl rfl
  · right
    dsimp only
    split <;> rfl

/-- A failed append leaves the ledger. -/
theorem ledger_appendAll_of_error
    {store : Store J} {records : List Record} {failure : Failure}
    (h : (store.appendAll records).result = .error failure) :
  (store.appendAll records).state.ledger = store.ledger
  := by
  rcases store.appendAll_cases records with ⟨-, journal, -, hstate⟩ | ⟨-, hresult, -⟩
  · rw [hstate]
  · cases hresult.symm.trans h

/-- The records of an append that succeeds pass the check and are taken in. -/
theorem ledger_appendAll_of_ok
    {store : Store J} {records : List Record} (h : (store.appendAll records).result = .ok ()) :
  store.ledger.Accepts records
    ∧ (store.appendAll records).state.ledger = store.ledger.applyAll records
  := by
  rcases store.appendAll_cases records with ⟨failure, journal, hresult, -⟩
    | ⟨haccepts, -, journal, hstate⟩
  · cases hresult.symm.trans h
  · rw [hstate]
    exact ⟨haccepts, rfl⟩

/-- An append of records that pass the check fails only if the journal refuses it. -/
theorem storage_of_appendAll
    {store : Store J} {records : List Record} (haccepts : store.ledger.Accepts records)
    {α : Type} {answer : Unit → α} {failure : Failure}
    (h : (store.appendAll records).result.map answer = .error failure) :
  ∃ location fault, failure = .storage location fault
  := by
  rw [appendAll_of_accepts haccepts] at h
  dsimp only at h
  rcases hwritten : (Journal.append store.journal (records.map Record.line)).result
    with fault | ⟨⟨⟩⟩
  · rw [hwritten] at h
    cases h
    exact ⟨_, fault, rfl⟩
  · rw [hwritten] at h
    cases h

/-- The store of a journal that can be read. -/
theorem load_of_lines
    {journal : J} {lines : List String} (h : Journal.lines journal = .ok lines) :
  let replay := Ledger.replay lines
  load journal = .ok
    ({ journal, ledger := replay.ledger, corrupt := replay.skips.length },
      replayNotices (Journal.location journal) replay)
  := by
  unfold load
  rw [h]

/-- A compaction replaces the lines of the journal. -/
theorem journal_compact
    (store : Store J) (now : UInt64) :
  (store.compact now).state.journal
    = (Journal.replace store.journal ((store.ledger.snapshot now).map Record.line)).state
  := by
  unfold compact
  dsimp only
  split <;> rfl

/-- A compaction fails and leaves everything but the journal, or it takes the snapshot in. -/
theorem compact_cases
    (store : Store J) (now : UInt64) :
  (∃ failure journal, (store.compact now).result = .error failure
      ∧ (store.compact now).state = { store with journal := journal })
    ∨ ((store.compact now).result = .ok (store.ledger.snapshot now).length
      ∧ ∃ journal, (store.compact now).state
        = { journal := journal
            ledger := ({ cursor := store.ledger.cursor } : Ledger).applyAll
              (store.ledger.snapshot now)
            corrupt := 0 })
  := by
  unfold compact
  dsimp only
  rcases (Journal.replace store.journal ((store.ledger.snapshot now).map Record.line)).result
    with fault | ⟨⟨⟩⟩
  · exact .inl ⟨_, _, rfl, rfl⟩
  · exact .inr ⟨rfl, _, rfl⟩

/-- A compaction that fails could not replace the journal, and changes nothing else. -/
theorem compact_of_error
    {store : Store J} {now : UInt64} {failure : Failure}
    (h : (store.compact now).result = .error failure) :
  let replaced := Journal.replace store.journal ((store.ledger.snapshot now).map Record.line)
  ∃ fault, replaced.result = .error fault
    ∧ failure = .storage (Journal.location replaced.state) fault
    ∧ (store.compact now).state = { store with journal := replaced.state }
  := by
  intro replaced
  unfold compact at h ⊢
  rcases hreplaced : replaced.result with fault | ⟨⟨⟩⟩
  · simp only [show (Journal.replace _ _).result = _ from hreplaced] at h ⊢
    cases h
    exact ⟨fault, rfl, rfl, rfl⟩
  · simp only [show (Journal.replace _ _).result = _ from hreplaced] at h
    cases h

/-- A compaction that succeeds has replaced the journal by the lines of the snapshot. -/
theorem compact_of_ok
    {store : Store J} {now : UInt64} {count : Nat} (h : (store.compact now).result = .ok count) :
  let replaced := Journal.replace store.journal ((store.ledger.snapshot now).map Record.line)
  replaced.result = .ok () ∧ count = (store.ledger.snapshot now).length
    ∧ (store.compact now).state = {
        journal := replaced.state
        ledger := ({ cursor := store.ledger.cursor } : Ledger).applyAll (store.ledger.snapshot now)
        corrupt := 0 }
  := by
  intro replaced
  unfold compact at h ⊢
  rcases hreplaced : replaced.result with fault | ⟨⟨⟩⟩
  · simp only [show (Journal.replace _ _).result = _ from hreplaced] at h
    cases h
  · simp only [show (Journal.replace _ _).result = _ from hreplaced] at h ⊢
    cases h
    exact ⟨trivial, rfl, rfl⟩

end Store

end IslandPlots
