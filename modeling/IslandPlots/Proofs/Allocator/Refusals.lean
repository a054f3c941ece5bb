import IslandPlots.Proofs.Allocator.Candidate
import IslandPlots.Proofs.Store.Stepwise

/-!
# Refused records

A record that cannot be taken in is refused before anything is written, and with it all records that
are to be appended together.  So what is appended together is taken in as a whole, as if it had been
appended record by record, or not at all; a compaction never meets such a record
(`Store.appendAll_atomic`).  An allocator only appends records that can be taken in, so allocations
and releases are never refused (`Allocator.Pooled.allocate_not_refused`,
`Allocator.Pooled.release_not_refused`).
-/

namespace IslandPlots

open WritableJournal (Writable Whole)

namespace Allocator

variable {J : Type} [Journal J]

namespace Pooled

variable {a : Allocator J} (h : a.Pooled)

include h

/-- An allocation is never refused. -/
theorem allocate_not_refused
    (name : String) (now : UInt64) (kind : Kind) (place : Coord) (standing : Option Standing) :
  (a.allocate name now).result ≠ .error (.refused kind place standing)
  := by
  intro hrefused
  rcases h.failure_of_allocate hrefused with ⟨hnext, -⟩ | ⟨location, fault, hstorage⟩
  · obtain ⟨edge, hedge⟩ := exhausted_of_nextCandidate hnext
    cases hedge
  · cases hstorage

/-- A release is never refused. -/
theorem release_not_refused
    (released : Coord) (now : UInt64) (kind : Kind) (place : Coord)
    (standing : Option Standing) :
  (a.release released now).result ≠ .error (.refused kind place standing)
  := by
  intro hrefused
  rcases h.release_cases released now with ⟨-, hresult, -⟩ | ⟨hassigned, hresult, -⟩
  · cases hresult.symm.trans hrefused
  · obtain ⟨location, fault, hstorage⟩ := Store.storage_of_appendAll
      (accepts_of_isAssigned hassigned now) (hresult.symm.trans hrefused)
    cases hstorage

end Pooled

/-- When a caller died, allocations and releases fail for this reason. -/
theorem result_of_poisoned
    {a : Allocator J} (h : a.poisoned = true) (name : String) (place : Coord) (now : UInt64) :
  (a.allocate name now).result = .error .poisoned
    ∧ (a.release place now).result = .error .poisoned
  := by
  unfold allocate release
  rw [if_pos h, if_pos h]
  exact ⟨rfl, rfl⟩

end Allocator

namespace Store

variable {J : Type} [Journal J] [WritableJournal J]

/-- Appending records together is appending them one at a time, made atomic.  On a journal that
accepts writes both succeed or fail alike, for any records, also several of one plot.  When they
succeed the ledger is the same either way, with all revisions and the cursor, and so is the number
of skipped lines; and so are the lines of the journal, except that to append no records together
finishes the last line, which changes it if the journal is a file whose unfinished last line ends
with a carriage return.  The first record that is refused when they are appended one at a time
refuses them all together, with the same failure, and then nothing has happened.  No record is
dropped when records that passed the check are taken in, nor when the snapshot of a ledger with one
reservation for each plot is.  Whatever is called on an allocator that was loaded and whatever the
journal does, also after a caller has died: no allocation and no release is refused. -/
theorem appendAll_atomic
    {store : Store J} (hwritable : Writable store.journal) (hdistinct : store.ledger.Distinct)
    (records : List Record) :
  let together := store.appendAll records
  let each := store.appendEach records
  together.result = each.result
    ∧ (together.result = .ok () →
      together.state.ledger = each.state.ledger ∧ together.state.corrupt = each.state.corrupt
        ∧ (Journal.lines together.state.journal = Journal.lines each.state.journal
          ↔ records ≠ [] ∨ Whole store.journal))
    ∧ (∀ before record after failure, records = before ++ record :: after →
      (store.appendEach before).result = .ok () →
      ((store.appendEach before).state.append record).result = .error failure →
      (∃ standing, failure = .refused record.kind record.place standing)
        ∧ together.result = .error failure ∧ together.state = store)
    ∧ (together.result = .ok () → ∀ before record after, records = before ++ record :: after →
      ∃ next, (store.ledger.applyAll before).apply record = .ok next)
    ∧ (∀ now before record after, store.ledger.snapshot now = before ++ record :: after →
      ∃ next, (({ cursor := store.ledger.cursor } : Ledger).applyAll before).apply record
        = .ok next)
    ∧ ∀ settings journal start notices moves b,
      Allocator.load settings journal = .ok ((start, notices) : Allocator J × List Notice) →
      b = start.play moves ∨ b.poisoned = true → ∀ name released now kind place standing,
        (b.allocate name now).result ≠ .error (.refused kind place standing)
          ∧ (b.release released now).result ≠ .error (.refused kind place standing)
  := by
  intro together each
  have hsame : together.result = each.result := (result_appendEach hwritable records).symm
  refine ⟨hsame, fun hok => ?_, ?_, ?_, ?_, ?_⟩
  · obtain ⟨haccepts, hledger, hcorrupt, -⟩ := appendEach_of_ok hwritable (hsame.symm.trans hok)
    have hstate := (appendAll_of_writable hwritable haccepts).2
    refine ⟨?_, ?_, ?_⟩
    · exact (congrArg Store.ledger hstate).trans hledger.symm
    · exact (congrArg Store.corrupt hstate).trans hcorrupt.symm
    · rcases records with _ | ⟨record, rest⟩
      · rw [show together.state = _ from hstate]
        exact (WritableJournal.lines_append_nil hwritable).trans (or_iff_right (absurd rfl)).symm
      · rw [show each.state = together.state from state_appendEach hwritable hok]
        exact iff_of_true rfl (.inl (List.cons_ne_nil _ _))
  · rintro before record after failure rfl hbefore hrefused
    obtain ⟨hrefusal, heq⟩ := appendAll_of_refused hwritable hbefore hrefused after
    simp only [together, heq]
    exact ⟨hrefusal, rfl, rfl⟩
  · rintro hok before record after rfl
    exact (ledger_appendAll_of_ok hok).1.exists_apply
  · intro now before record after hsnapshot
    have haccepts : ({ cursor := store.ledger.cursor } : Ledger).Accepts
        (store.ledger.snapshot now) := Ledger.accepts_snapshot rfl hdistinct now
    rw [hsnapshot] at haccepts
    exact haccepts.exists_apply
  · rintro settings journal start notices moves b hload hb name released now kind place standing
    rcases hb with rfl | hpoisoned
    · have hpooled := (Allocator.of_load hload).1.play moves
      exact ⟨hpooled.allocate_not_refused name now kind place standing,
        hpooled.release_not_refused released now kind place standing⟩
    · obtain ⟨hallocate, hrelease⟩ := Allocator.result_of_poisoned hpoisoned name released now
      rw [hallocate, hrelease]
      exact ⟨nofun, nofun⟩

/-- A plot is given up and assigned again in records that are appended together to a file whose last
line is unfinished.  A further record, which assigns it once more, refuses them all. -/
theorem appendAll_atomic_reassigned :
  let bytes := Text.encodeString "1;10;0;ASSIGN;ann\n2;10"
  let journal : FileJournal :=
    { FileJournal.holding [] with disk := (FileJournal.holding []).disk.edit 0 bytes }
  let place : Coord := ⟨10, 0, by decide, by decide⟩
  let records := [Record.orphan place 3, .assign place (some "bob") 4, .advance place 4]
  let again := Record.assign place none 5
  let failure := Failure.refused .assign place (some .assigned)
  ∃ store notices, load journal = .ok (store, notices) ∧ Writable store.journal
    ∧ store.ledger.Distinct ∧ (store.appendAll records).result = .ok ()
    ∧ (store.appendEach records).state.ledger = (store.appendAll records).state.ledger
    ∧ Journal.lines (store.appendAll records).state.journal
      = Journal.lines (store.appendEach records).state.journal
    ∧ (store.appendAll (records ++ [again])).result = .error failure
    ∧ (store.appendAll (records ++ [again])).state = store
  := by
  intro bytes journal place records again failure
  have hlinked : journal.Linked "." :=
    (FileJournal.sound_holding (by simp)).linked.edit 0 bytes
  have hlines : Journal.lines journal = .ok ["1;10;0;ASSIGN;ann", "2;10"] := by
    refine hlinked.lines_eq.trans (congrArg Except.ok ?_)
    decide +kernel
  let store : Store FileJournal :=
    { journal, ledger := (Ledger.replay ["1;10;0;ASSIGN;ann", "2;10"]).ledger, corrupt := 1 }
  have hjournal : journal.Writable := ⟨⟨".", hlinked⟩, rfl, rfl⟩
  have hwritable : Writable store.journal := hjournal
  have hdistinct : store.ledger.Distinct := Ledger.distinct_replay _
  have hok : (store.appendAll records).result = .ok () := by
    decide +kernel
  obtain ⟨hsame, hafter, -⟩ := appendAll_atomic hwritable hdistinct records
  obtain ⟨hledger, -, hread⟩ := hafter hok
  obtain ⟨-, -, hrefused, -⟩ := appendAll_atomic hwritable hdistinct (records ++ [again])
  have hagain : ((store.appendEach records).state.append again).result = .error failure := by
    decide +kernel
  obtain ⟨-, hresult, hstate⟩ :=
    hrefused records again [] failure rfl (hsame.symm.trans hok) hagain
  exact ⟨store, _, load_of_lines hlines, hwritable, hdistinct, hok, hledger.symm,
    hread.2 (.inl (List.cons_ne_nil _ _)), hresult, hstate⟩

/-- A record that gives up a plot is not read while its line is unfinished and ends with a carriage
return.  When no records are appended one at a time nothing happens; when no records are appended
together the record is read, and then nobody holds the plot. -/
theorem appendAll_nil_revives_line :
  let bytes := Text.encodeString "1;10;0;ASSIGN;ann\n2;10;0;ORPHAN;\r"
  let journal : FileJournal :=
    { FileJournal.holding [] with disk := (FileJournal.holding []).disk.edit 0 bytes }
  let old := ["1;10;0;ASSIGN;ann", "2;10;0;ORPHAN;\r"]
  let new := ["1;10;0;ASSIGN;ann", "2;10;0;ORPHAN;"]
  let place : Coord := ⟨10, 0, by decide, by decide⟩
  ∃ store notices, load journal = .ok (store, notices) ∧ Writable store.journal
    ∧ (store.appendAll []).result = .ok () ∧ (store.appendEach []).result = .ok ()
    ∧ Journal.lines (store.appendAll []).state.journal = .ok new
    ∧ Journal.lines (store.appendEach []).state.journal = .ok old ∧ new ≠ old
    ∧ (Ledger.replay new).ledger.standing? place = some .orphaned
    ∧ (Ledger.replay old).ledger.standing? place = some .assigned
  := by
  intro bytes journal old new place
  have hlinked : journal.Linked "." :=
    (FileJournal.sound_holding (by simp)).linked.edit 0 bytes
  have hlines : Journal.lines journal = .ok old := by
    refine hlinked.lines_eq.trans (congrArg Except.ok ?_)
    decide +kernel
  let store : Store FileJournal :=
    { journal, ledger := (Ledger.replay old).ledger, corrupt := 1 }
  have hjournal : journal.Writable := ⟨⟨".", hlinked⟩, rfl, rfl⟩
  have hwritable : Writable store.journal := hjournal
  have haccepts : store.ledger.Accepts [] := rfl
  obtain ⟨hresult, hstate⟩ := appendAll_of_writable hwritable haccepts
  have hnew : Journal.lines (store.appendAll []).state.journal = .ok new := by
    rw [hstate]
    refine (hlinked.append []).lines_eq.trans (congrArg Except.ok ?_)
    rw [hjournal.content_append]
    decide +kernel
  refine ⟨store, _, load_of_lines hlines, hwritable, hresult, rfl, hnew, hlines, ?_⟩
  decide +kernel

end Store

end IslandPlots
