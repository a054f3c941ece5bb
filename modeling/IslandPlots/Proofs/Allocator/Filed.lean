import IslandPlots.Proofs.Allocator.Turn

/-!
# Allocators on a disk

What is true of an allocator on a disk at any time, whatever bytes stood in the file when it was
opened and however compactions have failed (`Allocator.Filed`): the name of the log leads to some
file, the pool is that of the ledger, and every tenure can be written to a log.  A run keeps this
(`Allocator.Filed.turns`).
-/

namespace IslandPlots

/-- A record that is built begins a tenure that the log can tell. -/
theorem Record.Built.written_tenure {r : Record} (h : r.Built) :
  r.tenure.written = r.tenure
  := by
  rw [r.proper_tenure.written_eq]
  have howner : r.tenure.owner ≠ some "" := by
    unfold Record.tenure
    split_ifs
    · exact h.owner_ne_empty
    · nofun
  rw [Owner.filter_eq_self howner]

namespace Allocator

/-- The name of the log leads to some file, the device will not fail in the next compaction, the
pool is that of the ledger, and every tenure can be written to a log. -/
structure Filed (a : Allocator FileJournal) : Prop where
  named : ∃ number, a.store.journal.Named a.settings.storageDir number
  calm : a.store.journal.mishap = none
  pooled : a.Pooled
  written : a.ledger.AllTenures fun tenure => tenure.written = tenure

/-- The tenures of a log can be written to one. -/
theorem allTenures_written_replay (lines : List String) :
  (Ledger.replay lines).ledger.AllTenures fun tenure => tenure.written = tenure
  := by
  rw [Ledger.ledger_replay]
  apply Ledger.AllTenures.applyAll
  · rintro place tenure ⟨⟩
  · intro r hr _
    exact (Ledger.built_readable hr).written_tenure

/-- The allocator of a linked journal is filed. -/
theorem filed_ofJournal
    {settings : Settings} {journal : FileJournal} (h : journal.Linked settings.storageDir)
    (hcalm : journal.mishap = none) :
  (ofJournal settings journal).Filed
  where
  named := ⟨_, h.named⟩
  calm := hcalm
  pooled := ⟨Ledger.distinct_replay _, rfl, rfl⟩
  written := allTenures_written_replay _

namespace Filed

variable {a : Allocator FileJournal} (h : a.Filed)

include h

/-- The directory of the journal is there. -/
theorem based :
  a.store.journal.Based a.settings.storageDir
  := by
  obtain ⟨number, hnamed⟩ := h.named
  exact hnamed.based

/-- Another journal does not matter if the name leads to some file. -/
theorem onJournal
    {journal : FileJournal} {number : Nat} (hnamed : journal.Named a.settings.storageDir number)
    (hcalm : journal.mishap = none) :
  (a.onJournal journal).Filed
  := ⟨⟨number, hnamed⟩, hcalm, h.pooled.move (.journal journal), h.written⟩

/-- An append of records that are built leaves the allocator filed. -/
theorem appendAll
    {records : List Record} (hbuilt : ∀ r ∈ records, r.Built) :
  (a.withStore (a.store.appendAll records).state).Filed
  := by
  have hjournal : (∃ number,
        (a.store.appendAll records).state.journal.Named a.settings.storageDir number)
      ∧ (a.store.appendAll records).state.journal.mishap = none := by
    rcases a.store.journal_appendAll records with hsame | happended
    · rw [hsame]
      exact ⟨h.named, h.calm⟩
    · obtain ⟨number, hnamed⟩ := h.named
      rw [happended]
      exact ⟨⟨number, hnamed.append _⟩, (a.store.journal.mishap_append _).trans h.calm⟩
  rcases a.ledger_appended records with ⟨-, -, hledger⟩ | ⟨-, -, hledger⟩
  · refine ⟨hjournal.1, hjournal.2, ⟨?_, rfl, h.pooled.alive⟩, ?_⟩
    · rw [hledger]
      exact h.pooled.distinct
    · rw [hledger]
      exact h.written
  · refine ⟨hjournal.1, hjournal.2, ⟨?_, rfl, h.pooled.alive⟩, ?_⟩
    · rw [hledger]
      exact h.pooled.distinct.applyAll records
    · rw [hledger]
      exact h.written.applyAll fun r hr _ => (hbuilt r hr).written_tenure

/-- What a compaction leaves is filed if its journal is. -/
theorem of_compaction
    {b : Allocator FileJournal} {now : UInt64} {journal : FileJournal}
    {replaced : Except JournalFault Unit} {result : Except Failure Nat}
    (hcompaction : a.Compaction now journal replaced result b) (hpooled : b.Pooled) {number : Nat}
    (hnamed : journal.Named a.settings.storageDir number) (hcalm : journal.mishap = none) :
  b.Filed
  := by
  cases hcompaction with
  | failed => exact h.onJournal hnamed hcalm
  | done =>
    refine ⟨⟨number, hnamed⟩, hcalm, hpooled, ?_⟩
    apply Ledger.AllTenures.applyAll
    · rintro place tenure ⟨⟩
    · intro r hr _
      exact (Ledger.built_snapshot hr).written_tenure

/-- A compaction leaves the allocator filed. -/
theorem compact
    (now : UInt64) :
  (a.compact now).state.Filed
  := by
  obtain ⟨number, hnamed⟩ := h.named
  obtain ⟨new, hnew⟩ := hnamed.replace ((a.ledger.snapshot now).map Record.line)
  exact h.of_compaction (h.pooled.compaction now rfl) (h.pooled.move (.call (.compact now))) hnew
    (FileJournal.mishap_replace h.calm _)

/-- A compaction in which the device fails leaves the allocator filed. -/
theorem compactAmid
    (mishap : Mishap) (now : UInt64) :
  (a.compactAmid mishap now).state.Filed
  := by
  obtain ⟨number, hnamed⟩ := h.named
  have hstruck : (a.store.journal.strike mishap).Named a.settings.storageDir number :=
    hnamed.of_same _ _ _
  obtain ⟨new, hnew⟩ := hstruck.replace ((a.ledger.snapshot now).map Record.line)
  have hpooled : (a.compactAmid mishap now).state.Pooled :=
    h.pooled.play [.journal _, .call (.compact now), .journal _]
  exact h.of_compaction (h.pooled.compactionAmid mishap now rfl) hpooled (hnew.of_same _ _ none) rfl

/-- A call leaves the allocator filed. -/
theorem answer
    (call : Call) :
  (a.answer call).2.Filed
  := by
  rcases h.pooled.answer_cases call with hstate | ⟨records, hbuilt, -, -, hstate⟩ | ⟨now, hstate⟩
  · rw [hstate]
    exact h
  · rw [hstate]
    exact h.appendAll hbuilt
  · rw [hstate, ← (h.pooled.compact_eq now).2]
    exact h.compact now

/-- Opening the allocator anew gives that of the lines in the file under the name of the log, or the
configuration is refused and nothing happens. -/
theorem reopen_cases
    (spacing radius : Blocks) :
  (∃ settings journal, settings.storageDir = a.settings.storageDir
      ∧ journal.Linked settings.storageDir ∧ journal.mishap = none
      ∧ (a.reopen spacing radius).result = .ok ()
      ∧ (a.reopen spacing radius).state = ofJournal settings journal)
    ∨ (a.reopen spacing radius).state = a
  := by
  rcases hvalid : ({ spacing, radius, storageDir := a.settings.storageDir } : Config).validate
    with failure | settings
  · exact .inr (ReopenableJournal.reopen_of_error hvalid).2
  · left
    obtain ⟨number, hnamed⟩ := h.named
    obtain ⟨notices, hreopen⟩ := hnamed.reopen_eq hvalid
    have hdirectory := Config.storageDir_of_validate hvalid
    refine ⟨settings, ({ a.store.journal with handle := number } : FileJournal).fresh, hdirectory,
      ?_, rfl, ?_⟩
    · rw [hdirectory]
      exact hnamed.linked.of_same none none none
    · unfold Allocator.reopen
      change (FileJournal.reopen a _).result = _ ∧ (FileJournal.reopen a _).state = _
      rw [hreopen]
      exact ⟨rfl, rfl⟩

/-- A turn leaves the allocator filed. -/
theorem turn
    (turn : Turn FileJournal) :
  (a.turn turn).Filed
  := by
  obtain ⟨number, hnamed⟩ := h.named
  rcases turn with (call | fault | ⟨spacing, radius⟩) | ⟨mishap, now⟩
  · exact h.answer call
  · exact h.onJournal (hnamed.of_same _ (some fault) _) h.calm
  · change (a.reopen spacing radius).state.Filed
    rcases h.reopen_cases spacing radius with
      ⟨settings, journal, -, hlinked, hcalm, -, hstate⟩ | hstate
    · rw [hstate]
      exact filed_ofJournal hlinked hcalm
    · rw [hstate]
      exact h
  · exact h.compactAmid mishap now

/-- A run leaves the allocator filed. -/
theorem turns
    (course : List (Turn FileJournal)) :
  (a.turns course).Filed
  := turns_induct (P := fun _ b => b.Filed) h fun _ turn _ _ hbefore => hbefore.turn turn

end Filed

end Allocator

end IslandPlots
