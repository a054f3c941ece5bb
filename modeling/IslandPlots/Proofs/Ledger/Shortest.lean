import IslandPlots.Proofs.Ledger.Queue

/-!
# No log is shorter than a snapshot

A ledger weighs one record for each plot, another one for each orphan, and one if the cursor
has moved.  A record raises the weight by at most one (`Ledger.weight_apply_le`), so a log has
at least as many lines as its ledger weighs (`Ledger.weight_replay_le`), and a snapshot has
just as many.  The weight depends on the held plots, the orphans and the cursor only, so no log
that replays to these is shorter than the snapshot (`Ledger.length_snapshot_le`).
-/

namespace IslandPlots

namespace Ledger

/-- The number of records that a ledger needs. -/
def weight (ledger : Ledger) : Nat :=
  ledger.reservations.length + ledger.orphans.length
    + if ledger.cursor = Coord.origin then 0 else 1

/-- A reservation that supersedes another one takes its place. -/
theorem length_supersede_le {ledger : Ledger} {r : Reservation}
    (h : ledger.standing? r.place ≠ none) :
  (ledger.supersede r).reservations.length ≤ ledger.reservations.length
  := by
  obtain ⟨standing, hstanding⟩ := Option.ne_none_iff_exists'.1 h
  obtain ⟨old, hfound, -⟩ := Option.map_eq_some_iff.1 hstanding
  have hless : (ledger.reservations.filter fun old => old.place ≠ r.place).length
      < ledger.reservations.length := by
    apply List.length_filter_lt_length_iff_exists.2
    use old, List.mem_of_find?_eq_some hfound
    simpa using place_of_find? hfound
  change (_ ++ [r]).length ≤ _
  rw [List.length_append, List.length_singleton]
  exact hless

/-- A reservation makes a ledger longer by one at most. -/
theorem length_supersede_le_succ (ledger : Ledger) (r : Reservation) :
  (ledger.supersede r).reservations.length ≤ ledger.reservations.length + 1
  := by
  change (_ ++ [r]).length ≤ _
  rw [List.length_append, List.length_singleton]
  exact Nat.succ_le_succ (List.length_filter_le _ _)

/-- A record raises the weight by at most one: one that assigns a plot may add it, one that
gives it up makes it an orphan, and one that moves the cursor does only that. -/
theorem weight_apply_le {ledger after : Ledger} {record : Record} (hd : ledger.Distinct)
    (h : ledger.apply record = .ok after) :
  after.weight ≤ ledger.weight + 1
  := by
  have horphans := hd.orphans_apply h
  unfold weight
  rcases apply_cases h with ⟨hk, rfl⟩ | ⟨hk, hallows, rfl⟩
  · change ledger.reservations.length + ledger.orphans.length + _ ≤ _
    split_ifs <;> omega
  · have hcursor : (ledger.supersede (record.reservation ledger.revision)).cursor
        = ledger.cursor := rfl
    have hsucc := ledger.length_supersede_le_succ (record.reservation ledger.revision)
    rw [hcursor]
    rcases hkind : record.kind with _ | _ | _
    · rw [hkind] at horphans
      have hfewer := List.length_filter_le (fun place => decide (place ≠ record.place))
        ledger.orphans
      rw [horphans]
      dsimp only
      omega
    · rw [hkind, allows_orphan] at hallows
      have hsame : (ledger.supersede (record.reservation ledger.revision)).reservations.length
          ≤ ledger.reservations.length := by
        apply length_supersede_le
        change ledger.standing? record.place ≠ none
        rw [hallows]
        nofun
      rw [hkind] at horphans
      rw [horphans, List.length_append, List.length_singleton]
      omega
    · exact absurd hkind hk

/-- Records raise the weight by at most their number. -/
theorem weight_applyAll_le {ledger : Ledger} (hd : ledger.Distinct) (records : List Record) :
  (ledger.applyAll records).weight ≤ ledger.weight + records.length
  := by
  induction records generalizing ledger with
  | nil => exact Nat.le_refl _
  | cons record records ih =>
    rw [List.length_cons]
    rcases happly : ledger.apply record with rejection | after
    · rw [applyAll_cons_of_error happly]
      have := ih hd
      omega
    · rw [applyAll_cons_of_ok happly]
      have := ih (hd.apply happly)
      have := weight_apply_le hd happly
      omega

/-- A log has at least as many lines as its ledger weighs. -/
theorem weight_replay_le (lines : List String) :
  (replay lines).ledger.weight ≤ lines.length
  := by
  have hempty : ({} : Ledger).weight = 0 := rfl
  calc (replay lines).ledger.weight
      = (({} : Ledger).applyAll (readable lines)).weight := by rw [ledger_replay]
    _ ≤ ({} : Ledger).weight + (readable lines).length :=
        weight_applyAll_le (distinct_of_nil rfl) _
    _ ≤ lines.length := by
        rw [hempty, Nat.zero_add]
        exact List.length_filterMap_le _ _

/-- A snapshot has as many records as the ledger weighs. -/
@[simp]
theorem length_snapshot (ledger : Ledger) (now : UInt64) :
  (ledger.snapshot now).length = ledger.weight
  := by
  rw [snapshot_eq, List.length_append, List.length_append, weight, ← map_place_losses,
    List.length_map, assignments, List.length_map, moves]
  split_ifs <;> rfl

/-- The weight in numbers. -/
theorem weight_eq (ledger : Ledger) :
  ledger.weight = ledger.assignedCount + 2 * ledger.orphanedCount
    + if ledger.cursor = Coord.origin then 0 else 1
  := by
  rw [weight, length_reservations, orphanedCount_eq]
  omega

/-- Ledgers with the same held plots hold the same number of plots. -/
theorem assignedCount_congr {ledger other : Ledger} (hd : ledger.Distinct)
    (hd' : other.Distinct) (h : ∀ place, other.isAssigned place = ledger.isAssigned place) :
  other.assignedCount = ledger.assignedCount
  := by
  have hperm : (other.plots .assigned).Perm (ledger.plots .assigned) := by
    apply (List.perm_ext_iff_of_nodup (hd'.nodup_plots _) (hd.nodup_plots _)).2
    intro place
    rw [hd'.mem_plots, hd.mem_plots, ← isAssigned_iff, ← isAssigned_iff, h]
  rw [← length_plots_assigned, ← length_plots_assigned, hperm.length_eq]

/-- No log that replays to the same held plots, the same orphans in any order and the same cursor has
fewer lines than the snapshot. -/
theorem length_snapshot_le {ledger : Ledger} (hd : ledger.Distinct) (now : UInt64)
    {lines : List String}
    (hassigned : ∀ place, (replay lines).ledger.isAssigned place = ledger.isAssigned place)
    (horphans : (replay lines).ledger.orphans.Perm ledger.orphans)
    (hcursor : (replay lines).ledger.cursor = ledger.cursor) :
  (ledger.snapshot now).length ≤ lines.length
  := by
  have hsame : (replay lines).ledger.weight = ledger.weight := by
    rw [weight_eq, weight_eq, orphanedCount_eq, orphanedCount_eq, horphans.length_eq, hcursor,
      assignedCount_congr hd (distinct_replay lines) hassigned]
  rw [length_snapshot, ← hsame]
  exact weight_replay_le lines

end Ledger

end IslandPlots
