import IslandPlots.Proofs.Ledger.Interleaving
import IslandPlots.Proofs.Ledger.Queue
import Mathlib.Data.Finset.Card

/-!
# The balance of a ledger

The plots of a ledger are those that records assign, whether these are taken in or not
(`Ledger.card_assignedBy`): an assignment is rejected only when its plot is held already.  Of the
records that are taken in, each assignment adds one to the number of plots that are held and each
loss takes one away (`Ledger.assignedCount_applyAll`); a move of the cursor is never rejected
(`Ledger.countKind_advance_taken`).
-/

namespace IslandPlots

/-- The number of records of a kind. -/
def countKind (kind : Kind) (records : List Record) : Nat :=
  records.countP fun r => r.kind = kind

/-- One more record counts for its kind. -/
@[simp]
theorem countKind_cons (kind : Kind) (record : Record) (records : List Record) :
  countKind kind (record :: records)
    = countKind kind records + if record.kind = kind then 1 else 0
  := by
  simp [countKind, List.countP_cons]

/-- Records and others after them count together. -/
theorem countKind_append (kind : Kind) (xs ys : List Record) :
  countKind kind (xs ++ ys) = countKind kind xs + countKind kind ys
  := List.countP_append

/-- Every record is of one of the three kinds. -/
theorem length_eq_countKind (records : List Record) :
  records.length
    = countKind .assign records + countKind .orphan records + countKind .advance records
  := by
  induction records with
  | nil => rfl
  | cons record records ih =>
    rw [List.length_cons, ih]
    rcases hk : record.kind with _ | _ | _ <;> simp only [countKind_cons, hk] <;> simp <;> omega

namespace Ledger

/-! ### Plots -/

/-- The plots that records assign. -/
def assignedBy (records : List Record) : List Coord :=
  (records.filter fun r => r.kind = .assign).map (·.place)

/-- The plots of a ledger are those of which something is known. -/
theorem mem_places {ledger : Ledger} {place : Coord} :
  place ∈ ledger.reservations.map (·.place) ↔ ledger.tenure? place ≠ none
  := by
  rw [tenure?, ne_eq, Option.map_eq_none_iff, find?, List.find?_eq_none]
  simp

/-- Something is known of a plot after records if it was before or one of them assigns it. -/
theorem tenure?_applyAll_ne_none_iff {ledger : Ledger} {records : List Record} {place : Coord} :
  (ledger.applyAll records).tenure? place ≠ none
    ↔ ledger.tenure? place ≠ none ∨ place ∈ assignedBy records
  := by
  constructor
  · apply applyAll_induct (P := fun after => after.tenure? place ≠ none →
      ledger.tenure? place ≠ none ∨ place ∈ assignedBy records) .inl
    intro before record after hmem hbefore happly hknown
    rw [tenure?_apply happly] at hknown
    by_cases habout : record.kind ≠ .advance ∧ place = record.place
    · obtain ⟨hk, rfl⟩ := habout
      have hallows := allows_of_apply happly
      rcases hkind : record.kind with _ | _ | _
      · right
        apply List.mem_map_of_mem
        exact List.mem_filter.2 ⟨hmem, decide_eq_true hkind⟩
      · rw [hkind, allows_orphan] at hallows
        exact hbefore (tenure?_ne_none_of_standing? hallows)
      · exact absurd hkind hk
    · rw [if_neg habout] at hknown
      exact hbefore hknown
  · rintro (hknown | hassigned)
    · exact tenure?_applyAll_ne_none hknown records
    · obtain ⟨record, hrecord, rfl⟩ := List.mem_map.1 hassigned
      obtain ⟨hmem, hk⟩ := List.mem_filter.1 hrecord
      exact tenure?_applyAll_of_assign hmem (of_decide_eq_true hk)

/-- A ledger has a reservation for each plot that the records of the log assign. -/
theorem card_assignedBy (records : List Record) :
  (({} : Ledger).applyAll records).reservations.length = (assignedBy records).toFinset.card
  := by
  have hempty : ({} : Ledger).Distinct := distinct_of_nil rfl
  have hdistinct := hempty.applyAll records
  rw [← List.length_map (·.place), ← List.toFinset_card_of_nodup hdistinct]
  congr 1
  ext place
  rw [List.mem_toFinset, List.mem_toFinset, mem_places, tenure?_applyAll_ne_none_iff]
  apply or_iff_right
  exact not_not.2 rfl

/-! ### Records that are taken in -/

/-- Some of the records are taken in, in their order. -/
theorem taken_sublist (ledger : Ledger) (records : List Record) :
  (ledger.taken records).Sublist records
  := by
  induction records generalizing ledger with
  | nil => exact List.Sublist.slnil
  | cons record records ih =>
    rcases happly : ledger.apply record with rejection | after
    · simpa [happly] using (ih ledger).cons record
    · rw [taken_cons_of_ok happly]
      exact (ih after).cons_cons record

/-- An assignment that is taken in adds one to the number of plots that are held, and a loss takes
one away. -/
theorem Distinct.assignedCount_apply
    {ledger after : Ledger} {record : Record} (h : ledger.Distinct)
    (happly : ledger.apply record = .ok after) :
  after.assignedCount + (if record.kind = .orphan then 1 else 0)
    = ledger.assignedCount + if record.kind = .assign then 1 else 0
  := by
  rw [← length_plots_assigned, ← length_plots_assigned]
  rcases apply_cases happly with ⟨hk, rfl⟩ | ⟨hk, hallows, rfl⟩
  · rw [hk]
    rfl
  · rw [plots_supersede, List.length_append]
    change (List.filter (fun place => decide (place ≠ record.place)) _).length
      + (if record.tenure.standing = .assigned then [record.place] else []).length + _ = _
    rcases hkind : record.kind with _ | _ | _ <;> simp only [Record.tenure, hkind]
    · -- The plot was not held, so none is taken from the list.
      rw [hkind, allows_assign] at hallows
      rw [List.filter_eq_self.2]
      · rfl
      · intro place hplace
        rw [decide_eq_true_iff]
        rintro rfl
        exact hallows (h.mem_plots.1 hplace)
    · -- The plot was held, and it is listed once.
      rw [hkind, allows_orphan] at hallows
      have herase : (ledger.plots .assigned).filter (· ≠ record.place)
          = (ledger.plots .assigned).erase record.place := by
        rw [(h.nodup_plots .assigned).erase_eq_filter]
        exact List.filter_congr fun place _ => Bool.eq_iff_iff.2 (by simp)
      rw [herase]
      exact List.length_erase_add_one (mem_plots_of_standing? hallows)
    · exact absurd hkind hk

/-- The plots that are held after records, with the losses among those that are taken in, are as
many as the plots that were held before, with the assignments. -/
theorem Distinct.assignedCount_applyAll
    {ledger : Ledger} (h : ledger.Distinct) (records : List Record) :
  (ledger.applyAll records).assignedCount + countKind .orphan (ledger.taken records)
    = ledger.assignedCount + countKind .assign (ledger.taken records)
  := by
  induction records generalizing ledger with
  | nil => rfl
  | cons record records ih =>
    rcases happly : ledger.apply record with rejection | after
    · simpa [happly] using ih h
    · have hfirst := h.assignedCount_apply happly
      have hrest := ih (h.apply happly)
      rw [applyAll_cons_of_ok happly, taken_cons_of_ok happly, countKind_cons, countKind_cons]
      omega

/-- A move of the cursor is never rejected. -/
theorem countKind_advance_taken (ledger : Ledger) (records : List Record) :
  countKind .advance (ledger.taken records) = countKind .advance records
  := by
  induction records generalizing ledger with
  | nil => rfl
  | cons record records ih =>
    rcases happly : ledger.apply record with rejection | after
    · have hk : record.kind ≠ .advance := by
        intro hk
        have hallows : allows (ledger.standing? record.place) record.kind = true := by
          rw [hk]
          rfl
        obtain ⟨after, hafter⟩ := exists_apply hallows
        cases hafter.symm.trans happly
      simp [happly, ih, hk]
    · simp [happly, ih]

/-! ### Whole logs -/

/-- The plots that are held after a replay, with the losses that it takes in, are as many as the
assignments that it takes in. -/
theorem assignedCount_replay (lines : List String) :
  (replay lines).ledger.assignedCount + countKind .orphan (({} : Ledger).taken (readable lines))
    = countKind .assign (({} : Ledger).taken (readable lines))
  := by
  have hempty : ({} : Ledger).Distinct := distinct_of_nil rfl
  rw [ledger_replay, hempty.assignedCount_applyAll]
  exact Nat.zero_add _

/-- The assignments and losses that a log shows are taken in, or skipped with the lines that show
nothing. -/
theorem length_skips_replay (lines : List String) :
  countKind .assign (({} : Ledger).taken (readable lines))
      + countKind .orphan (({} : Ledger).taken (readable lines)) + (replay lines).skips.length
    = countKind .assign (readable lines) + countKind .orphan (readable lines) + unreadable lines
  := by
  have hrevision := revision_replay lines
  rw [ledger_replay, revision_applyAll_eq, ← length_readable] at hrevision
  have hmoves := countKind_advance_taken {} (readable lines)
  have hread := length_eq_countKind (readable lines)
  have htaken := length_eq_countKind (({} : Ledger).taken (readable lines))
  have hnone : ({} : Ledger).revision = 0 := rfl
  omega

end Ledger

end IslandPlots
