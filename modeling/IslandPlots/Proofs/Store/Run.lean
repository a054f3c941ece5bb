import IslandPlots.Proofs.Journal.File
import IslandPlots.Proofs.Store.Consistent

/-!
# Runs of a store

A store goes from operation to operation; between them something can befall its journal, so
that any operation may be refused.  Each step leaves a consistent store consistent
(`Store.Consistent.perform`), and so does a run.
-/

namespace IslandPlots

namespace Store

variable {J : Type} [Journal J] [LawfulJournal J]

open LawfulJournal (Sound Stuck Clean held)

/-- A step of a run. -/
inductive Operation (J : Type) [Journal J] [LawfulJournal J] [HazardousJournal J] where
  | append (record : Record) (built : record.Built)
  | appendAll (records : List Record) (built : ∀ r ∈ records, r.Built)
  | assign (place : Coord) (owner : Option String) (now : UInt64)
  | markOrphan (place : Coord) (now : UInt64)
  | advanceCursor (place : Coord) (now : UInt64)
  | compact (now : UInt64)
  /-- Something befalls the journal. -/
  | hazard (hazard : HazardousJournal.Hazard J)

omit [LawfulJournal J] in
/-- What taking a plot from its holder does to a store. -/
theorem state_markOrphan (store : Store J) (place : Coord) (now : UInt64) :
  (store.markOrphan place now).state
    = if store.ledger.isAssigned place then (store.appendAll [.orphan place now]).state else store
  := by
  unfold markOrphan
  split_ifs <;> rfl

/-- A store that is clean and consistent is what loading its journal gives. -/
theorem Consistent.load_eq {directory : String} {store : Store J} (h : store.Consistent directory)
    (hclean : Clean store.journal) :
  ∃ notices, load store.journal = .ok (store, notices)
  := by
  rw [Store.load_eq h.sound, h.ofJournal_eq (LawfulJournal.not_stuck_of_clean hclean)]
  exact ⟨_, rfl⟩

variable [HazardousJournal J]

/-- The store after a step, whether the step succeeds or fails. -/
def perform (store : Store J) : Operation J → Store J
  | .append record _ => (store.append record).state
  | .appendAll records _ => (store.appendAll records).state
  | .assign place owner now => (store.assign place owner now).state
  | .markOrphan place now => (store.markOrphan place now).state
  | .advanceCursor place now => (store.advanceCursor place now).state
  | .compact now => (store.compact now).state
  | .hazard hazard => { store with journal := HazardousJournal.befall store.journal hazard }

/-- The store after a run. -/
def run (store : Store J) (operations : List (Operation J)) : Store J :=
  operations.foldl perform store

/-- What befalls the journal in the step leaves nothing behind. -/
def Operation.Mild : Operation J → Prop
  | .hazard what => HazardousJournal.Mild what
  | _ => True

/-- A step leaves a consistent store consistent. -/
theorem Consistent.perform {directory : String} {store : Store J} (h : store.Consistent directory)
    (operation : Operation J) :
  (store.perform operation).Consistent directory
  := by
  have hone : ∀ record : Record, record.Built →
      (store.appendAll [record]).state.Consistent directory := by
    intro record hbuilt
    apply h.of_appended _ (appended h.sound [record])
    rw [List.forall_mem_singleton]
    exact hbuilt
  cases operation with
  | append record built => exact hone record built
  | appendAll records built => exact h.of_appended built (appended h.sound records)
  | assign place owner now => exact hone _ (.assign ..)
  | markOrphan place now =>
    rw [Store.perform, state_markOrphan]
    split_ifs
    · exact hone _ (.orphan ..)
    · exact h
  | advanceCursor place now => exact hone _ (.advance ..)
  | compact now => exact h.of_compacted (compacted h.sound now)
  | hazard hazard =>
    exact h.of_held_eq (HazardousJournal.sound_befall hazard h.sound)
      (HazardousJournal.stuck_befall hazard) (HazardousJournal.held_befall hazard)

/-- A step leaves a clean journal clean unless something befalls it that will not. -/
theorem Consistent.clean_perform {directory : String} {store : Store J}
    (h : store.Consistent directory) (hclean : Clean store.journal) {operation : Operation J}
    (hmild : operation.Mild) :
  Clean (store.perform operation).journal
  := by
  cases operation with
  | append record built => exact clean_appendAll h.sound hclean [record]
  | appendAll records built => exact clean_appendAll h.sound hclean records
  | assign place owner now => exact clean_appendAll h.sound hclean [.assign place owner now]
  | markOrphan place now =>
    rw [Store.perform, state_markOrphan]
    split_ifs
    · exact clean_appendAll h.sound hclean [.orphan place now]
    · exact hclean
  | advanceCursor place now => exact clean_appendAll h.sound hclean [.advance place now]
  | compact now => exact clean_compact h.sound hclean now
  | hazard hazard => exact HazardousJournal.clean_befall hclean hmild

/-- A run leaves a consistent store consistent, and its journal clean if nothing befalls it
that will not. -/
theorem Consistent.run {directory : String} {store : Store J} (h : store.Consistent directory)
    (hclean : Clean store.journal) {operations : List (Operation J)}
    (hmild : ∀ operation ∈ operations, operation.Mild) :
  (store.run operations).Consistent directory ∧ Clean (store.run operations).journal
  := by
  induction operations generalizing store with
  | nil => exact ⟨h, hclean⟩
  | cons operation operations ih =>
    rw [List.forall_mem_cons] at hmild
    exact ih (h.perform operation) (h.clean_perform hclean hmild.1) hmild.2

/-- Memory is the replay of the journal: after every run from a freshly loaded store the
store is the one that loading its journal gives.  This holds of journals in memory that
begin with any lines and refuse at any time, and of journals in files in which the device
fails at any time and the file is cut back. -/
theorem load_run :
  (∀ journal : MemoryJournal, ∃ store notices, load journal = .ok (store, notices) ∧
      ∀ operations : List (Operation MemoryJournal),
        ∃ notices, load (store.run operations).journal = .ok (store.run operations, notices))
    ∧ ∀ (disk after : Disk) (directory : String) (journal : FileJournal),
      disk.WellFormed → FileJournal.open disk directory = (.ok journal, after) →
      Text.Terminable journal.content →
      ∃ store notices, load journal = .ok (store, notices) ∧
        ∀ operations : List (Operation FileJournal),
          (∀ operation ∈ operations, operation.Mild) →
          ∃ notices, load (store.run operations).journal = .ok (store.run operations, notices)
  := by
  constructor
  · intro journal
    refine ⟨_, _, Store.load_eq (journal.sound ""), fun operations => ?_⟩
    have hmild : ∀ operation ∈ operations, operation.Mild := by
      intro operation _
      cases operation <;> trivial
    obtain ⟨hrun, hclean⟩ := (consistent_ofJournal (journal.sound "")).run trivial hmild
    exact hrun.load_eq hclean
  · intro disk after directory journal hwf hopen hterminable
    obtain ⟨hsound, hfresh⟩ := FileJournal.sound_of_open hwf hopen hterminable
    have hclean : Clean journal := by
      rw [← hfresh]
      exact ⟨rfl, nofun⟩
    refine ⟨_, _, Store.load_eq hsound, fun operations hmild => ?_⟩
    obtain ⟨hrun, hclean⟩ := (consistent_ofJournal hsound).run hclean hmild
    exact hrun.load_eq hclean

/-- Memory is the replay of a journal in a file also after a refused append and a
compaction. -/
theorem load_run_holding :
  let place : Coord := ⟨10, 0, by decide, by decide⟩
  let operations : List (Operation FileJournal) := [.assign place (some "carol") 1,
    .hazard ⟨4, false⟩, .markOrphan place 2, .advanceCursor place 3, .compact 4]
  ∃ store notices, load (FileJournal.holding []) = .ok (store, notices)
    ∧ ∃ notices, load (store.run operations).journal = .ok (store.run operations, notices)
  := by
  intro place operations
  have hsound : (FileJournal.holding []).Sound "." := FileJournal.sound_holding (by simp)
  obtain ⟨store, notices, hload, hrun⟩ :=
    load_run.2 _ _ "." _ hsound.wellFormed hsound.open_eq hsound.terminable
  refine ⟨store, notices, hload, hrun operations ?_⟩
  simp only [operations, List.forall_mem_cons]
  exact ⟨trivial, rfl, trivial, trivial, trivial, by simp⟩

end Store

end IslandPlots
