import IslandPlots.Proofs.Journal.Replacing
import IslandPlots.Proofs.Ledger.Shortest
import IslandPlots.Proofs.Store.Writing

/-!
# Compaction

A store can be reached by writing, whatever befalls its journal between the operations
(`Store.Reached`).  A compaction that succeeds keeps what the store knows, in memory and in the
log, and no log with fewer lines says the same (`Store.compact_shortest`).  Only the name of an
owner that is empty is lost, since the log does not tell it from no owner; a record has such a
name only if it was not built in one of the usual ways.
-/

namespace IslandPlots

namespace Store

variable {J : Type} [Journal J] [ReplacedJournal J]

open ReplacedJournal (Sane)

/-- A store that is reached from a journal by any operations, successful or not.  Callers may
append the records that are admitted, and between the operations the journal can become
another one. -/
inductive Reached (admitted : Record → Prop) : Store J → Prop where
  | load {journal : J} {store : Store J} {notices : List Notice} (hsane : Sane journal)
    (hload : load journal = .ok (store, notices)) : Reached admitted store
  | append {store : Store J} {record : Record} (hrecord : admitted record)
    (h : Reached admitted store) : Reached admitted (store.append record).state
  | appendAll {store : Store J} {records : List Record} (hrecords : ∀ r ∈ records, admitted r)
    (h : Reached admitted store) : Reached admitted (store.appendAll records).state
  | assign {store : Store J} (place : Coord) (owner : Option String) (now : UInt64)
    (h : Reached admitted store) : Reached admitted (store.assign place owner now).state
  | markOrphan {store : Store J} (place : Coord) (now : UInt64)
    (h : Reached admitted store) : Reached admitted (store.markOrphan place now).state
  | advanceCursor {store : Store J} (place : Coord) (now : UInt64)
    (h : Reached admitted store) : Reached admitted (store.advanceCursor place now).state
  | compact {store : Store J} (now : UInt64)
    (h : Reached admitted store) : Reached admitted (store.compact now).state
  | journal {store : Store J} {journal : J} (hsane : Sane journal)
    (h : Reached admitted store) : Reached admitted { store with journal := journal }

/-! ### What is true of every store that is reached -/

/-- The journal is sane, no plot has two reservations, and every tenure has a property. -/
structure Steady (P : Tenure → Prop) (store : Store J) : Prop where
  sane : Sane store.journal
  distinct : store.ledger.Distinct
  tenures : store.ledger.AllTenures P

namespace Steady

variable {P : Tenure → Prop} {store : Store J} (h : store.Steady P)

include h

/-- An append keeps a store steady if its records give the property to the tenures they
begin. -/
theorem appendAll
    {records : List Record} (hrecords : ∀ r ∈ records, r.kind ≠ .advance → P r.tenure) :
  (store.appendAll records).state.Steady P
  := by
  have hsane : Sane (Journal.append store.journal (records.map Record.line)).state :=
    ReplacedJournal.sane_append h.sane
  rcases hcheck : Ledger.checkAll store.ledger.standing? records with refused | ⟨⟨⟩⟩
  · unfold Store.appendAll
    rw [hcheck]
    exact h
  · rw [appendAll_of_accepts hcheck]
    dsimp only
    rcases (Journal.append store.journal (records.map Record.line)).result with fault | ⟨⟨⟩⟩
    · exact ⟨hsane, h.distinct, h.tenures⟩
    · exact ⟨hsane, h.distinct.applyAll records, h.tenures.applyAll hrecords⟩

/-- A compaction keeps a store steady if records that were built give the property. -/
theorem compact
    (hbuilt : ∀ r : Record, r.Built → r.kind ≠ .advance → P r.tenure) (now : UInt64) :
  (store.compact now).state.Steady P
  := by
  have hsane : Sane (Journal.replace store.journal
      ((store.ledger.snapshot now).map Record.line)).state :=
    ReplacedJournal.sane_replace h.sane
  unfold Store.compact
  dsimp only
  rcases (Journal.replace store.journal ((store.ledger.snapshot now).map Record.line)).result
    with fault | ⟨⟨⟩⟩
  · exact ⟨hsane, h.distinct, h.tenures⟩
  · refine ⟨hsane, (Ledger.distinct_of_nil rfl).applyAll _, ?_⟩
    apply Ledger.AllTenures.applyAll
    · rintro place tenure ⟨⟩
    · intro r hr
      exact hbuilt r (Ledger.built_snapshot hr)

end Steady

/-- A store that is loaded is steady if records that were built give the property, since all
that are read could have been built. -/
theorem steady_of_load
    {P : Tenure → Prop} (hbuilt : ∀ r : Record, r.Built → r.kind ≠ .advance → P r.tenure)
    {journal : J} (hsane : Sane journal) {store : Store J} {notices : List Notice}
    (hload : load journal = .ok (store, notices)) :
  store.Steady P
  := by
  unfold load at hload
  rcases hlines : Journal.lines journal with fault | lines
  · simp only [hlines] at hload
    cases hload
  simp only [hlines] at hload
  cases hload
  refine ⟨hsane, Ledger.distinct_replay lines, ?_⟩
  change Ledger.AllTenures P (Ledger.replay lines).ledger
  rw [Ledger.ledger_replay]
  apply Ledger.AllTenures.applyAll
  · rintro place tenure ⟨⟩
  · intro r hr
    exact hbuilt r (Ledger.built_readable hr)

/-- A store that is reached is steady with every property that records give to the tenures they
begin. -/
theorem Reached.steady
    {P : Tenure → Prop} (hbuilt : ∀ r : Record, r.Built → r.kind ≠ .advance → P r.tenure)
    {admitted : Record → Prop} (hadmitted : ∀ r, admitted r → r.kind ≠ .advance → P r.tenure)
    {store : Store J} (h : Reached admitted store) :
  store.Steady P
  := by
  have hone : ∀ (s : Store J) (r : Record), s.Steady P → (r.kind ≠ .advance → P r.tenure) →
      (s.appendAll [r]).state.Steady P := by
    intro s r hs hr
    apply hs.appendAll
    rw [List.forall_mem_singleton]
    exact hr
  induction h with
  | load hsane hload => exact steady_of_load hbuilt hsane hload
  | append hrecord _ ih => exact hone _ _ ih (hadmitted _ hrecord)
  | appendAll hrecords _ ih => exact ih.appendAll fun r hr => hadmitted r (hrecords r hr)
  | assign place owner now _ ih => exact hone _ _ ih (hbuilt _ (.assign ..))
  | markOrphan place now _ ih =>
    unfold Store.markOrphan
    split_ifs
    · exact hone _ _ ih (hbuilt _ (.orphan ..))
    · exact ih
  | advanceCursor place now _ ih => exact hone _ _ ih (hbuilt _ (.advance ..))
  | compact now _ ih => exact ih.compact hbuilt now
  | journal hsane _ ih => exact ⟨hsane, ih.distinct, ih.tenures⟩

/-- In a store that is reached nobody owns a plot that was given up. -/
theorem Reached.proper
    {admitted : Record → Prop} {store : Store J} (h : Reached admitted store) :
  store.Steady Tenure.Proper
  := h.steady (fun r _ _ => r.proper_tenure) (fun r _ _ => r.proper_tenure)

/-- In a store that is reached no owner has the empty name, if no admitted record names such an
owner. -/
theorem Reached.named
    {admitted : Record → Prop} (hadmitted : ∀ r, admitted r → r.owner ≠ some "")
    {store : Store J} (h : Reached admitted store) :
  store.Steady fun tenure => tenure.owner ≠ some ""
  := by
  have htenure : ∀ r : Record, r.owner ≠ some "" → r.tenure.owner ≠ some "" := by
    intro r hr
    unfold Record.tenure
    split_ifs
    · exact hr
    · nofun
  apply h.steady
  · exact fun r hr _ => htenure r hr.owner_ne_empty
  · exact fun r hr _ => htenure r (hadmitted r hr)

/-! ### What a compaction keeps -/

/-- The log of a compaction can be read back, and every journal that holds it is loaded as the
store that the compaction left. -/
theorem Steady.exists_lines_compact
    {P : Tenure → Prop} {store : Store J} (h : store.Steady P) {now : UInt64} {count : Nat}
    (hcompact : (store.compact now).result = .ok count) :
  let after := (store.compact now).state
  ∃ lines, Journal.lines after.journal = .ok lines
    ∧ lines.length = count
    ∧ (Ledger.replay lines).skips = []
    ∧ ∀ journal : J, Journal.lines journal = .ok lines →
      load journal = .ok ({ after with journal := journal }, [])
  := by
  obtain ⟨hreplaced, rfl, hafter⟩ := compact_of_ok hcompact
  rw [hafter]
  have hreplay := Ledger.replay_snapshot h.distinct now
  refine ⟨_, ReplacedJournal.lines_replace h.sane (unbroken_map_line _) hreplaced, ?_, ?_, ?_⟩
  · exact List.length_map _
  · rw [hreplay]
  · intro journal hlines
    rw [load_of_lines hlines, hreplay]
    rfl

/-- A compaction that succeeds keeps every tenure, but for an owner with the empty name, who
becomes no owner; it keeps every tenure as it is if no admitted record names such an owner.
It keeps the cursor and the queue of orphans and forgets the skipped lines.  Its lines are in
the journal, they are as many as it says, none of them is skipped, every journal that holds them
is loaded as the store that the compaction left, and no log with fewer lines replays to the same
held plots, the same orphans in any order and the same cursor. -/
theorem compact_shortest
    {admitted : Record → Prop} {store : Store J} (h : Reached admitted store) {now : UInt64}
    {count : Nat} (hcompact : (store.compact now).result = .ok count) :
  let after := (store.compact now).state
  (∀ place, after.ledger.tenure? place = (store.ledger.tenure? place).map fun tenure =>
      { tenure with owner := tenure.owner.filter (· ≠ "") })
    ∧ ((∀ r, admitted r → r.owner ≠ some "") →
      ∀ place, after.ledger.tenure? place = store.ledger.tenure? place)
    ∧ after.ledger.cursor = store.ledger.cursor
    ∧ after.ledger.orphans = store.ledger.orphans
    ∧ after.corrupt = 0
    ∧ count = store.ledger.assignedCount + 2 * store.ledger.orphanedCount
        + (if store.ledger.cursor = Coord.origin then 0 else 1)
    ∧ (∃ lines, Journal.lines after.journal = .ok lines
      ∧ lines.length = count
      ∧ (Ledger.replay lines).skips = []
      ∧ ∀ journal : J, Journal.lines journal = .ok lines →
        load journal = .ok ({ after with journal := journal }, []))
    ∧ ∀ log, (∀ place,
          (Ledger.replay log).ledger.isAssigned place = store.ledger.isAssigned place) →
        (Ledger.replay log).ledger.orphans.Perm store.ledger.orphans →
        (Ledger.replay log).ledger.cursor = store.ledger.cursor →
      count ≤ log.length
  := by
  intro after
  have hd := h.proper.distinct
  have hlines := h.proper.exists_lines_compact hcompact
  obtain ⟨-, rfl, hafter⟩ := compact_of_ok hcompact
  have hledger : after.ledger
      = ({ cursor := store.ledger.cursor } : Ledger).applyAll (store.ledger.snapshot now) :=
    congrArg ledger hafter
  have htenures : ∀ place, after.ledger.tenure? place
      = (store.ledger.tenure? place).map fun tenure =>
        { tenure with owner := tenure.owner.filter (· ≠ "") } := by
    intro place
    rw [hledger, Ledger.tenure?_snapshot rfl hd]
    exact Option.map_congr fun tenure htenure =>
      (h.proper.tenures place tenure htenure).written_eq
  refine ⟨htenures, ?_, ?_, ?_, ?_, ?_, hlines, ?_⟩
  · intro hadmitted place
    rw [htenures]
    rcases htenure : store.ledger.tenure? place with _ | tenure
    · rfl
    · have hnamed : tenure.owner ≠ some "" := (h.named hadmitted).tenures place tenure htenure
      rw [Option.map_some, Owner.filter_eq_self hnamed]
  · rw [hledger, Ledger.cursor_snapshot]
  · rw [hledger, Ledger.orphans_snapshot rfl hd]
  · exact congrArg corrupt hafter
  · simp [Ledger.weight_eq]
  · intro log hassigned horphans hcursor
    exact Ledger.length_snapshot_le hd now hassigned horphans hcursor

/-- A plot that was assigned to Carol and given up takes two lines, and stays as it is. -/
theorem compact_shortest_orphan :
  let place : Coord := ⟨10, 0, by decide, by decide⟩
  let empty : Store MemoryJournal := { journal := {} }
  let store := ((empty.assign place (some "carol") 1).state.markOrphan place 2).state
  (store.compact 3).result = .ok 2
    ∧ (∀ other, (store.compact 3).state.ledger.tenure? other = store.ledger.tenure? other)
    ∧ (store.compact 3).state.ledger.orphans = [place]
  := by
  intro place empty store
  have hreached : Reached (fun _ => False) store := by
    apply Reached.markOrphan
    apply Reached.assign
    have hload : load ({} : MemoryJournal) = .ok (empty, []) := rfl
    exact .load trivial hload
  have hcompact : (store.compact 3).result = .ok 2 := rfl
  obtain ⟨-, htenures, -, horphans, -⟩ := compact_shortest hreached hcompact
  refine ⟨hcompact, htenures fun _ => False.elim, ?_⟩
  rw [horphans]
  rfl

/-- A compaction forgets that a plot was assigned to an owner with the empty name. -/
theorem compact_forgets_empty :
  let place : Coord := ⟨10, 0, by decide, by decide⟩
  let record : Record := { stamp := 1, place, kind := .assign, owner := some "" }
  let store := (Store.append ({ journal := {} } : Store MemoryJournal) record).state
  Reached (fun r => r = record) store
    ∧ (store.compact 2).result = .ok 1
    ∧ store.ledger.tenure? place = some { standing := .assigned, owner := some "", changed := 1 }
    ∧ (store.compact 2).state.ledger.tenure? place
      = some { standing := .assigned, owner := none, changed := 1 }
  := by
  intro place record store
  have hreached : Reached (fun r => r = record) store := by
    have hrecord : (fun r => r = record) record := rfl
    exact .append hrecord (.load trivial rfl)
  exact ⟨hreached, by decide, by decide, by decide⟩

end Store

end IslandPlots
