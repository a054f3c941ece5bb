import IslandPlots.Proofs.Journal.File
import IslandPlots.Proofs.Ledger.Torn
import IslandPlots.Proofs.Store.Consistent

/-!
# Recovery from a crash

When the writing of a batch stops after some bytes, the store that is loaded afterwards has
taken in a beginning of the batch, except when the last record that is there is misread
(`Record.CutsOwner`).  Then its plot is held by an owner whom the record does not name
(`Store.recover_interrupted`).
-/

namespace IslandPlots

namespace Store

/-- A store whose next append stops after `k` bytes, which stay in the file. -/
def interrupted (store : Store FileJournal) (k : Nat) : Store FileJournal :=
  { store with journal := { store.journal with fault := some ⟨k, true⟩ } }

section

variable {directory : String} {store : Store FileJournal}
  (hsound : store.journal.Sound directory) (hremnant : store.journal.remnant = none)
  (hfinished : Text.isUnfinished store.journal.content = false)
  {records : List Record} (haccepts : store.ledger.Accepts records) (k : Nat)

include hsound hremnant hfinished haccepts

/-- An interrupted append leaves the first `k` bytes of the lines in the file. -/
theorem journal_interrupted :
  let crashed := ((store.interrupted k).appendAll records).state.journal
  crashed.Sound directory ∧ crashed.content
    = store.journal.content ++ (Text.writeLines (records.map Record.line)).take k
  := by
  have hchecked : Ledger.checkAll (store.interrupted k).ledger.standing? records = .ok () :=
    haccepts
  have hsound' : (store.interrupted k).journal.Sound directory := hsound.of_same _ _
  have hbytes : (store.interrupted k).journal.newBytes (records.map Record.line)
      = Text.writeLines (records.map Record.line) :=
    congrArg (· ++ _) (Text.ending_of_not_isUnfinished hfinished)
  have happend := hsound'.append_eq hremnant (records.map Record.line)
  have hafter := hsound'.append (unbroken_map_line records)
  rw [hbytes] at happend
  simp only [interrupted, if_true] at happend hafter hchecked ⊢
  unfold appendAll
  simp only [hchecked, Journal.append]
  rw [happend] at hafter ⊢
  refine ⟨hafter, ?_⟩
  exact Disk.content_edit hsound.handle_lt _

/-- What is read after an interrupted append. -/
theorem load_interrupted
    (hledger : (Ledger.replay (Text.readLines store.journal.content)).ledger = store.ledger)
    (hbuilt : ∀ r ∈ records, r.Built) :
  let crashed := ((store.interrupted k).appendAll records).state.journal
  ∃ reopened recovered notices,
    FileJournal.open crashed.disk directory = (.ok reopened, crashed.disk)
      ∧ load reopened = .ok (recovered, notices)
      ∧ recovered.ledger = store.ledger.applyAll (Record.tornAll records k)
  := by
  obtain ⟨hcrashed, hcontent⟩ :=
    journal_interrupted hsound hremnant hfinished haccepts k
  have hread := Text.readLines_append_take hsound.terminable (unbroken_map_line records) k
  rw [Text.ending_of_not_isUnfinished hfinished, List.nil_append, List.length_nil,
    Nat.sub_zero, ← hcontent] at hread
  refine ⟨_, _, _, hcrashed.open_eq, load_eq hcrashed.reopened.lawful, ?_⟩
  have hreplay := Ledger.ledger_replay_append (Text.readLines store.journal.content)
    (Text.torn (records.map Record.line) k)
  rw [← hread, hledger, Record.readable_torn hbuilt] at hreplay
  exact hreplay

end

/-- After a crash the journal can be opened, and the store that is loaded has taken in the
records that the written bytes show.  These are a beginning of the batch exactly when the
writing did not stop in an owner, and only then the ledger is that of a beginning.  Otherwise
a plot is held by an owner whom its record does not name. -/
theorem recover_interrupted
    {disk after : Disk} (hwf : disk.WellFormed) {directory : String} {journal : FileJournal}
    (hopen : FileJournal.open disk directory = (.ok journal, after))
    (hfinished : journal.content = [] ∨ journal.content.getLast? = some Text.lineFeed)
    {store : Store FileJournal} {notices : List Notice}
    (hload : load journal = .ok (store, notices)) {records : List Record}
    (hbuilt : ∀ r ∈ records, r.Built)
    (haccepts : Ledger.checkAll store.ledger.standing? records = .ok ()) (k : Nat) :
  let crashed := ((store.interrupted k).appendAll records).state.journal
  crashed.content = journal.content ++ (Text.writeLines (records.map Record.line)).take k
    ∧ ∃ reopened recovered notices,
      FileJournal.open crashed.disk directory = (.ok reopened, crashed.disk)
        ∧ load reopened = .ok (recovered, notices)
        ∧ recovered.ledger = store.ledger.applyAll (Record.tornAll records k)
        ∧ ((∃ j, Record.tornAll records k = records.take j) ↔ ¬ Record.CutsOwner records k)
        ∧ ((∃ j, recovered.ledger = store.ledger.applyAll (records.take j))
          ↔ ¬ Record.CutsOwner records k)
        ∧ (Record.CutsOwner records k → store.ledger.Misled records recovered.ledger)
  := by
  have hunfinished := Text.isUnfinished_of_finished hfinished
  obtain ⟨hsound, hfresh⟩ :=
    FileJournal.sound_of_open hwf hopen (Text.terminable_of_not_isUnfinished hunfinished)
  have hremnant : journal.remnant = none := by
    rw [← hfresh]
    rfl
  cases hload.symm.trans (load_eq hsound.lawful)
  obtain ⟨-, hcontent⟩ :=
    @journal_interrupted _ (ofJournal journal) hsound hremnant hunfinished _ haccepts k
  obtain ⟨reopened, recovered, notices, hreopen, hreload, hledger⟩ :=
    @load_interrupted _ (ofJournal journal) hsound hremnant hunfinished _ haccepts k rfl hbuilt
  refine ⟨hcontent, reopened, recovered, notices, hreopen, hreload, hledger,
    Record.tornAll_eq_take_iff hbuilt, ?_, ?_⟩
  · rw [hledger]
    exact Ledger.applyAll_tornAll_iff haccepts hbuilt
  · rw [hledger]
    exact Ledger.misled_of_cutsOwner haccepts

/-- An append that stops in its second record leaves the first one. -/
theorem recover_first_record :
  let place : Coord := ⟨10, 0, by decide, by decide⟩
  let store := ofJournal (FileJournal.holding [])
  let records := [.assign place (some "carol") 1700000000000, .advance place 1700000000000]
  let crashed := ((store.interrupted 40).appendAll records).state.journal
  ∃ reopened recovered notices,
    FileJournal.open crashed.disk "." = (.ok reopened, crashed.disk)
      ∧ load reopened = .ok (recovered, notices)
      ∧ recovered.ledger = store.ledger.applyAll (records.take 1)
  := by
  intro place store records crashed
  have hsound : (FileJournal.holding []).Sound "." := FileJournal.sound_holding (by simp)
  have hbuilt : ∀ r ∈ records, r.Built := by
    simp only [records, List.forall_mem_cons]
    exact ⟨.assign .., .advance .., by simp⟩
  obtain ⟨-, reopened, recovered, notices, hreopen, hreload, hledger, -⟩ :=
    recover_interrupted hsound.wellFormed hsound.open_eq (.inl rfl) (load_eq hsound) hbuilt
      (by decide) 40
  have hfound : Record.tornAll records 40 = records.take 1 := by
    decide
  exact ⟨reopened, recovered, notices, hreopen, hreload, hfound ▸ hledger⟩

/-- An append that stops within the last character of an owner called José leaves a plot to
someone else. -/
theorem recover_other_owner :
  let place : Coord := ⟨10, 0, by decide, by decide⟩
  let store := ofJournal (FileJournal.holding [])
  let records := [.assign place (some "José") 1700000000000]
  let crashed := ((store.interrupted 30).appendAll records).state.journal
  load (FileJournal.holding []) = .ok (store, []) ∧ store.ledger.Accepts records
    ∧ ∃ reopened recovered notices,
      FileJournal.open crashed.disk "." = (.ok reopened, crashed.disk)
        ∧ load reopened = .ok (recovered, notices)
        ∧ recovered.ledger.ownerOf place = some "Jos\uFFFD"
        ∧ ∀ j, (store.ledger.applyAll (records.take j)).ownerOf place
          ≠ recovered.ledger.ownerOf place
  := by
  intro place store records crashed
  have hsound : (FileJournal.holding []).Sound "." := FileJournal.sound_holding (by simp)
  have haccepts : store.ledger.Accepts records := rfl
  have hbuilt : ∀ r ∈ records, r.Built := by
    simp only [records, List.forall_mem_singleton]
    exact .assign ..
  obtain ⟨reopened, recovered, notices, hreopen, hreload, hledger⟩ :=
    @load_interrupted _ store hsound rfl rfl _ haccepts 30 rfl hbuilt
  have howner : recovered.ledger.ownerOf place = some "Jos\uFFFD" := by
    rw [hledger]
    decide
  refine ⟨load_eq hsound, haccepts, reopened, recovered, notices, hreopen, hreload, howner,
    fun j => ?_⟩
  rw [howner]
  cases j with
  | zero => decide
  | succ j =>
    rw [List.take_succ_cons, List.take_nil]
    decide

end Store

end IslandPlots
