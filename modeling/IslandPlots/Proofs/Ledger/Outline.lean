import IslandPlots.Proofs.Ledger.Snapshot

/-!
# What a ledger says without names and times

The outline of a ledger forgets who holds a plot and since when; it keeps which plots have a
reservation, their standings, the order and the numbers of the records, and the cursor.
Outlines follow records and snapshots as ledgers do (`Ledger.outline_applyAll`,
`Ledger.map_outline_snapshot`), and whether records are possible depends on outlines only
(`Ledger.checkAll_outline`).
-/

namespace IslandPlots

/-- A reservation without the name of the owner and the time. -/
def Reservation.outline (r : Reservation) : Reservation :=
  { r with owner := none, changed := 0 }

/-- A record without the name of the owner and the time. -/
def Record.outline (r : Record) : Record :=
  { r with owner := none, stamp := 0 }

namespace Ledger

/-- A ledger without the names of the owners and the times. -/
def outline (ledger : Ledger) : Ledger :=
  { ledger with reservations := ledger.reservations.map Reservation.outline }

/-! ### Questions -/

/-- The reservation of a plot in an outline. -/
theorem find?_outline (ledger : Ledger) (place : Coord) :
  ledger.outline.find? place = (ledger.find? place).map Reservation.outline
  := List.find?_map

/-- An outline keeps the standings. -/
@[simp]
theorem standing?_outline (ledger : Ledger) :
  ledger.outline.standing? = ledger.standing?
  := by
  funext place
  rw [standing?, find?_outline, Option.map_map]
  rfl

/-- An outline keeps the queue of orphans. -/
@[simp]
theorem orphans_outline (ledger : Ledger) :
  ledger.outline.orphans = ledger.orphans
  := by
  unfold orphans orphanReservations outline
  rw [List.filter_map, List.map_map]
  rfl

/-- An outline keeps the number of plots that someone holds. -/
@[simp]
theorem assignedCount_outline (ledger : Ledger) :
  ledger.outline.assignedCount = ledger.assignedCount
  := List.countP_map

/-- An outline keeps the number of plots that were given up. -/
@[simp]
theorem orphanedCount_outline (ledger : Ledger) :
  ledger.outline.orphanedCount = ledger.orphanedCount
  := by
  rw [orphanedCount, assignedCount_outline, outline, List.length_map]
  rfl

/-- Ledgers with one outline have one standing for each plot. -/
theorem standing?_congr
    {ledger other : Ledger} (h : ledger.outline = other.outline) :
  ledger.standing? = other.standing?
  := by
  rw [← standing?_outline, h, standing?_outline]

/-- Ledgers with one outline have one cursor. -/
theorem cursor_congr
    {ledger other : Ledger} (h : ledger.outline = other.outline) :
  ledger.cursor = other.cursor
  := by
  change ledger.outline.cursor = other.outline.cursor
  rw [h]

/-! ### Records -/

/-- An outline follows the two changes of a ledger. -/
theorem outline_supersede (ledger : Ledger) (r : Reservation) :
  (ledger.supersede r).outline = ledger.outline.supersede r.outline
  := by
  unfold outline supersede
  rw [List.map_append, List.filter_map]
  rfl

/-- The outline of a reservation that a record makes. -/
theorem outline_reservation (record : Record) (revision : Nat) :
  (record.reservation revision).outline = record.outline.reservation revision
  := by
  obtain ⟨stamp, place, kind, owner⟩ := record
  cases kind <;> rfl

/-- A record that is taken in by a ledger is taken in by its outline. -/
theorem apply_outline
    {ledger after : Ledger} {record : Record} (h : ledger.apply record = .ok after) :
  ledger.outline.apply record.outline = .ok after.outline
  := by
  have hallows := allows_of_apply h
  rw [← standing?_outline] at hallows
  obtain ⟨outlined, happly⟩ :
      ∃ outlined, ledger.outline.apply record.outline = .ok outlined := exists_apply hallows
  rw [happly]
  rcases apply_cases h with ⟨hk, rfl⟩ | ⟨hk, -, rfl⟩
  · rcases apply_cases happly with ⟨-, rfl⟩ | ⟨hk', -, -⟩
    · rfl
    · exact absurd hk hk'
  · rcases apply_cases happly with ⟨hk', -⟩ | ⟨-, -, rfl⟩
    · exact absurd hk' hk
    · rw [outline_supersede, outline_reservation]
      rfl

/-- A record that is refused by a ledger is refused by its outline. -/
theorem apply_outline_of_error
    {ledger : Ledger} {record : Record} {rejection : Rejection}
    (h : ledger.apply record = .error rejection) :
  ∃ refusal, ledger.outline.apply record.outline = .error refusal
  := by
  rcases happly : ledger.outline.apply record.outline with refusal | outlined
  · exact ⟨refusal, rfl⟩
  · have hallows := allows_of_apply happly
    rw [standing?_outline] at hallows
    obtain ⟨after, hafter⟩ : ∃ after, ledger.apply record = .ok after := exists_apply hallows
    cases h.symm.trans hafter

/-- The outline of a ledger that takes records in takes in their outlines. -/
@[simp]
theorem outline_applyAll (ledger : Ledger) (records : List Record) :
  (ledger.applyAll records).outline = ledger.outline.applyAll (records.map Record.outline)
  := by
  induction records generalizing ledger with
  | nil => rfl
  | cons record records ih =>
    rw [List.map_cons]
    rcases happly : ledger.apply record with rejection | after
    · obtain ⟨rejection', happly'⟩ := apply_outline_of_error happly
      simp [happly, happly', ih]
    · simp [happly, apply_outline happly, ih]

/-- The check of records looks at their outlines only. -/
@[simp]
theorem checkAll_outline (standings : Coord → Option Standing) (records : List Record) :
  checkAll standings (records.map Record.outline)
    = (checkAll standings records).mapError (Prod.map Record.outline id)
  := by
  induction records generalizing standings with
  | nil => rfl
  | cons record records ih =>
    rw [List.map_cons, checkAll, checkAll]
    by_cases hallows : allows (standings record.place) record.kind = true
    · rw [if_pos hallows, ← ih]
      exact if_pos hallows
    · rw [if_neg hallows]
      exact if_neg hallows

/-- The outline of a snapshot is the snapshot of the outline. -/
@[simp]
theorem map_outline_snapshot (ledger : Ledger) (now : UInt64) :
  (ledger.snapshot now).map Record.outline = ledger.outline.snapshot 0
  := by
  have hassignments : ledger.assignments.map Record.outline = ledger.outline.assignments := by
    unfold assignments outline
    rw [List.map_map, List.map_map]
    rfl
  have hlosses : ledger.losses.map Record.outline = ledger.outline.losses := by
    unfold losses orphanReservations outline
    rw [List.filter_map, List.map_map, List.map_map]
    rfl
  have hmoves : (ledger.moves now).map Record.outline = ledger.outline.moves 0 := by
    change _ = if ledger.cursor = Coord.origin then _ else _
    unfold moves
    split_ifs <;> rfl
  rw [snapshot_eq, snapshot_eq, List.map_append, List.map_append, hassignments, hlosses, hmoves]

end Ledger

end IslandPlots
