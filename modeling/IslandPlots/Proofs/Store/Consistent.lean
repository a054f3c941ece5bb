import IslandPlots.Proofs.Journal.Laws
import IslandPlots.Proofs.Ledger.Replay
import IslandPlots.Proofs.Ledger.Snapshot
import IslandPlots.Proofs.Store.Writing

/-!
# Stores agree with their journals

What writing does to a store is said once for appends (`Store.Appended`) and once for
compaction (`Store.Compacted`).  A store is consistent when its ledger and its number of
skipped lines are those of a replay of its journal, unless the journal is stuck; both ways of
writing keep it so.
-/

namespace IslandPlots

namespace Store

variable {J : Type} [Journal J] [LawfulJournal J]

open LawfulJournal (Sound Stuck Clean held)

/-! ### What writing does -/

/-- What an append of records can leave. -/
inductive Appended (directory : String) (store : Store J) (records : List Record) :
    Except Failure Unit → Store J → Prop where
  /-- The records are impossible, and the journal was not asked. -/
  | rejected (failure : Failure) : Appended directory store records (.error failure) store
  /-- The records are in the journal and in the ledger. -/
  | acknowledged {after : J} (haccepts : store.ledger.Accepts records)
    (hsound : Sound directory after) (hbefore : ¬ Stuck store.journal) (hafter : ¬ Stuck after)
    (hheld : held after = held store.journal ++ records.map Record.line) :
    Appended directory store records (.ok ())
      { store with journal := after, ledger := store.ledger.applyAll records }
  /-- The journal refused. -/
  | refused {after : J} (failure : Failure) (hsound : Sound directory after)
    (hstuck : Stuck after ↔ Stuck store.journal) (hheld : held after = held store.journal) :
    Appended directory store records (.error failure) { store with journal := after }
  /-- The device failed and left some bytes of the records. -/
  | torn {after : J} (failure : Failure) (k : Nat) (haccepts : store.ledger.Accepts records)
    (hsound : Sound directory after) (hbefore : ¬ Stuck store.journal) (hafter : Stuck after)
    (hheld : held after = held store.journal ++ Text.torn (records.map Record.line) k) :
    Appended directory store records (.error failure) { store with journal := after }

/-- What a compaction can leave. -/
inductive Compacted (directory : String) (store : Store J) (now : UInt64) :
    Except Failure Nat → Store J → Prop where
  /-- The journal was replaced by the snapshot. -/
  | acknowledged {after : J} (hsound : Sound directory after) (hafter : ¬ Stuck after)
    (hheld : held after = (store.ledger.snapshot now).map Record.line) :
    Compacted directory store now (.ok (store.ledger.snapshot now).length)
      { journal := after
        ledger := ({ cursor := store.ledger.cursor } : Ledger).applyAll (store.ledger.snapshot now)
        corrupt := 0 }
  /-- The journal refused. -/
  | refused {after : J} (failure : Failure) (hsound : Sound directory after)
    (hstuck : Stuck after ↔ Stuck store.journal) (hheld : held after = held store.journal) :
    Compacted directory store now (.error failure) { store with journal := after }

section

variable {directory : String} {store : Store J} (hsound : Sound directory store.journal)

include hsound

/-- An append leaves what an append can leave. -/
theorem appended (records : List Record) :
  Appended directory store records (store.appendAll records).result
    (store.appendAll records).state
  := by
  unfold appendAll
  split
  next record standing _ => exact .rejected (.refused record.kind record.place standing)
  next haccepts =>
    have hlines := unbroken_map_line records
    have hafter := LawfulJournal.sound_append hsound hlines
    rcases LawfulJournal.append_cases hsound hlines rfl with
      ⟨hresult, hbefore, hstuck, hheld⟩ | ⟨fault, hresult, hstuck, hheld⟩
        | ⟨fault, k, hresult, hbefore, hstuck, hheld⟩
    · simp only [hresult]
      exact .acknowledged haccepts hafter hbefore hstuck hheld
    · simp only [hresult]
      exact .refused _ hafter hstuck hheld
    · simp only [hresult]
      exact .torn _ k haccepts hafter hbefore hstuck hheld

/-- A compaction leaves what a compaction can leave. -/
theorem compacted (now : UInt64) :
  Compacted directory store now (store.compact now).result (store.compact now).state
  := by
  unfold compact
  have hlines := unbroken_map_line (store.ledger.snapshot now)
  have hafter := LawfulJournal.sound_replace hsound hlines
  rcases LawfulJournal.replace_cases hsound hlines rfl with
    ⟨hresult, hstuck, hheld⟩ | ⟨fault, hresult, hstuck, hheld⟩
  · simp only [hresult]
    exact .acknowledged hafter hstuck hheld
  · simp only [hresult]
    exact .refused _ hafter hstuck hheld

/-- An append to a clean journal leaves it clean. -/
theorem clean_appendAll (hclean : Clean store.journal) (records : List Record) :
  Clean (store.appendAll records).state.journal
  := by
  rcases store.journal_appendAll records with hsame | happended
  · rw [hsame]
    exact hclean
  · rw [happended]
    exact LawfulJournal.clean_append hsound hclean

/-- A compaction leaves a clean journal clean. -/
theorem clean_compact (hclean : Clean store.journal) (now : UInt64) :
  Clean (store.compact now).state.journal
  := by
  rw [store.journal_compact now]
  exact LawfulJournal.clean_replace hsound (unbroken_map_line _) hclean

end

/-! ### Consistency -/

/-- The ledger of a store is what a replay of its journal gives, unless the journal is
stuck. -/
structure Consistent (directory : String) (store : Store J) : Prop where
  sound : Sound directory store.journal
  distinct : store.ledger.Distinct
  ledger_eq : ¬ Stuck store.journal →
    (Ledger.replay (held store.journal)).ledger = store.ledger
  corrupt_eq : ¬ Stuck store.journal →
    (Ledger.replay (held store.journal)).skips.length = store.corrupt

/-- The store that a journal amounts to. -/
def ofJournal (journal : J) : Store J where
  journal := journal
  ledger := (Ledger.replay (held journal)).ledger
  corrupt := (Ledger.replay (held journal)).skips.length

/-- Loading a journal in working order gives the store it amounts to. -/
theorem load_eq {directory : String} {journal : J} (h : Sound directory journal) :
  load journal = .ok (ofJournal journal,
    replayNotices (Journal.location journal) (Ledger.replay (held journal)))
  := load_of_lines (LawfulJournal.lines_eq h)

/-- The store that a journal amounts to is consistent. -/
theorem consistent_ofJournal {directory : String} {journal : J} (h : Sound directory journal) :
  (ofJournal journal).Consistent directory
  := ⟨h, Ledger.distinct_replay _, fun _ => rfl, fun _ => rfl⟩

/-- The store whose journal was replaced by the snapshot is consistent, whatever the journal was
before. -/
theorem consistent_of_snapshot
    {directory : String} {ledger : Ledger} (hdistinct : ledger.Distinct) {now : UInt64} {journal : J}
    (hsound : Sound directory journal)
    (hheld : held journal = (ledger.snapshot now).map Record.line) :
  ({ journal
     ledger := ({ cursor := ledger.cursor } : Ledger).applyAll (ledger.snapshot now)
     corrupt := 0 } : Store J).Consistent directory
  := by
  have hreplay := Ledger.replay_snapshot hdistinct now
  refine ⟨hsound, (Ledger.distinct_of_nil rfl).applyAll _, fun _ => ?_, fun _ => ?_⟩
  · rw [hheld, hreplay]
  · rw [hheld, hreplay]
    rfl

namespace Consistent

variable {directory : String} {store : Store J} (h : store.Consistent directory)

include h

/-- A consistent store is the store that its journal amounts to. -/
theorem ofJournal_eq (hstuck : ¬ Stuck store.journal) :
  ofJournal store.journal = store
  := by
  rw [ofJournal, h.ledger_eq hstuck, h.corrupt_eq hstuck]

/-- A store stays consistent with a journal that holds the same lines. -/
theorem of_held_eq {after : J} (hsound : Sound directory after)
    (hstuck : Stuck after ↔ Stuck store.journal) (hheld : held after = held store.journal) :
  { store with journal := after }.Consistent directory
  := by
  refine ⟨hsound, h.distinct, fun hafter => ?_, fun hafter => ?_⟩
  · rw [hheld]
    exact h.ledger_eq (fun hbefore => hafter (hstuck.2 hbefore))
  · rw [hheld]
    exact h.corrupt_eq (fun hbefore => hafter (hstuck.2 hbefore))

/-- What an append leaves is consistent. -/
theorem of_appended {records : List Record} (hbuilt : ∀ r ∈ records, r.Built)
    {result : Except Failure Unit} {after : Store J}
    (happended : Appended directory store records result after) :
  after.Consistent directory
  := by
  cases happended with
  | rejected => exact h
  | acknowledged haccepts hsound hbefore hafter hheld =>
    have hledger := h.ledger_eq hbefore
    have hreplay := Ledger.replay_append_of_accepts hbuilt (hledger ▸ haccepts)
    refine ⟨hsound, h.distinct.applyAll records, fun _ => ?_, fun _ => ?_⟩
    · rw [hheld, hreplay, hledger]
    · rw [hheld, hreplay]
      exact h.corrupt_eq hbefore
  | refused failure hsound hstuck hheld => exact h.of_held_eq hsound hstuck hheld
  | torn failure k haccepts hsound hbefore hafter hheld =>
    exact ⟨hsound, h.distinct, fun hnot => absurd hafter hnot, fun hnot => absurd hafter hnot⟩

/-- What a compaction leaves is consistent. -/
theorem of_compacted {now : UInt64} {result : Except Failure Nat} {after : Store J}
    (hcompacted : Compacted directory store now result after) :
  after.Consistent directory
  := by
  cases hcompacted with
  | acknowledged hsound hafter hheld => exact consistent_of_snapshot h.distinct hsound hheld
  | refused failure hsound hstuck hheld => exact h.of_held_eq hsound hstuck hheld

end Consistent

end Store

end IslandPlots
