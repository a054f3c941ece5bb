import IslandPlots.Proofs.Ledger.Replay

/-!
# Shortest logs

A snapshot can be taken into every ledger that has no reservations (`Ledger.accepts_snapshot`),
and what it makes there has the cursor, the tenures and the queue of orphans of the ledger it
was taken of.  A store that is compacted keeps its cursor and takes the snapshot in, and a
replay of the snapshot begins with the cursor at the origin; the result is the same
(`Ledger.applyAll_snapshot_cleared`).
-/

namespace IslandPlots

/-- A tenure as it is written: an owner without a name is no owner, and an orphan has none. -/
def Tenure.written (tenure : Tenure) : Tenure :=
  { tenure with
    owner := if tenure.standing = .assigned then tenure.owner.filter (· ≠ "") else none }

/-- Nobody owns a plot that was given up. -/
def Tenure.Proper (tenure : Tenure) : Prop :=
  tenure.standing = .orphaned → tenure.owner = none

/-- A record begins a tenure in which nobody owns a plot that was given up. -/
theorem Record.proper_tenure (r : Record) :
  r.tenure.Proper
  := by
  unfold Tenure.Proper Record.tenure
  split_ifs
  · nofun
  · exact fun _ => rfl

/-- In a proper tenure only an owner without a name is not written. -/
theorem Tenure.Proper.written_eq {tenure : Tenure} (h : tenure.Proper) :
  tenure.written = { tenure with owner := tenure.owner.filter (· ≠ "") }
  := by
  obtain ⟨standing, owner, changed⟩ := tenure
  cases standing with
  | assigned => rfl
  | orphaned =>
    obtain rfl : owner = none := h rfl
    rfl

namespace Ledger

/-- The part of a snapshot that assigns the plots. -/
def assignments (ledger : Ledger) : List Record :=
  ledger.reservations.map fun r => Record.assign r.place r.owner r.changed

/-- The part of a snapshot that gives up the plots without an owner. -/
def losses (ledger : Ledger) : List Record :=
  ledger.orphanReservations.map fun r => Record.orphan r.place r.changed

/-- The part of a snapshot that moves the cursor. -/
def moves (ledger : Ledger) (now : UInt64) : List Record :=
  if ledger.cursor = Coord.origin then [] else [Record.advance ledger.cursor now]

/-- A snapshot has three parts. -/
theorem snapshot_eq (ledger : Ledger) (now : UInt64) :
  ledger.snapshot now = ledger.assignments ++ ledger.losses ++ ledger.moves now
  := rfl

/-- The records of a snapshot can be written. -/
theorem built_snapshot {ledger : Ledger} {now : UInt64} {r : Record} (h : r ∈ ledger.snapshot now) :
  r.Built
  := by
  rw [snapshot_eq, List.mem_append, List.mem_append] at h
  rcases h with (h | h) | h
  · obtain ⟨old, -, rfl⟩ := List.mem_map.1 h
    exact .assign ..
  · obtain ⟨old, -, rfl⟩ := List.mem_map.1 h
    exact .orphan ..
  · unfold moves at h
    split_ifs at h
    · cases h
    · rw [List.mem_singleton.1 h]
      exact .advance ..

/-- The plots that a snapshot assigns. -/
@[simp]
theorem map_place_assignments (ledger : Ledger) :
  ledger.assignments.map (·.place) = ledger.reservations.map (·.place)
  := by
  rw [assignments, List.map_map]
  rfl

/-- The plots that a snapshot gives up. -/
@[simp]
theorem map_place_losses (ledger : Ledger) :
  ledger.losses.map (·.place) = ledger.orphans
  := by
  rw [losses, List.map_map]
  rfl

/-- What a snapshot says of the cursor is a move of it. -/
theorem kind_moves {ledger : Ledger} {now : UInt64} {r : Record} (h : r ∈ ledger.moves now) :
  r.kind = .advance
  := by
  unfold moves at h
  split_ifs at h
  · cases h
  · rw [List.mem_singleton.1 h]
    rfl

section

variable {base ledger : Ledger} (hbase : base.reservations = []) (hd : ledger.Distinct)

include hbase hd

/-- All plots can be assigned when none is. -/
theorem accepts_assignments :
  base.Accepts ledger.assignments
  := by
  apply accepts_of_nodup
  · simpa [Distinct] using hd
  · intro r hr
    obtain ⟨old, -, rfl⟩ := List.mem_map.1 hr
    apply allows_assign.2
    rw [standing?, find?, hbase]
    intro hheld
    cases hheld

/-- After the assignments of a snapshot each plot is held as the snapshot says. -/
theorem tenure?_assignments {r : Reservation} (hr : r ∈ ledger.reservations) :
  (base.applyAll ledger.assignments).tenure? r.place
    = some (Record.assign r.place r.owner r.changed).tenure
  := by
  have hmem : Record.assign r.place r.owner r.changed ∈ ledger.assignments :=
    List.mem_map_of_mem hr
  refine tenure?_applyAll_of_mem ?_ (accepts_assignments hbase hd) hmem nofun
  simpa [Distinct] using hd

/-- After the assignments of a snapshot the orphans can be given up. -/
theorem accepts_losses :
  (base.applyAll ledger.assignments).Accepts ledger.losses
  := by
  apply accepts_of_nodup
  · simpa using hd.nodup_orphans
  · intro r hr
    obtain ⟨old, hold, rfl⟩ := List.mem_map.1 hr
    apply allows_orphan.2
    have htenure := tenure?_assignments hbase hd (List.mem_filter.1 hold).1
    rw [standing?_eq]
    exact congrArg (Option.map Tenure.standing) htenure

/-- After the losses of a snapshot each orphan is held as the snapshot says. -/
theorem tenure?_losses {r : Reservation} (hr : r ∈ ledger.orphanReservations) :
  ((base.applyAll ledger.assignments).applyAll ledger.losses).tenure? r.place
    = some (Record.orphan r.place r.changed).tenure
  := by
  have hmem : Record.orphan r.place r.changed ∈ ledger.losses := List.mem_map_of_mem hr
  refine tenure?_applyAll_of_mem ?_ (accepts_losses hbase hd) hmem nofun
  simpa using hd.nodup_orphans

/-- A snapshot can be taken in when there are no reservations. -/
theorem accepts_snapshot (now : UInt64) :
  base.Accepts (ledger.snapshot now)
  := by
  rw [snapshot_eq, accepts_append, accepts_append]
  exact ⟨⟨accepts_assignments hbase hd, accepts_losses hbase hd⟩,
    accepts_of_advance fun _ => kind_moves⟩

/-- What a snapshot makes of the plots that are not in the ledger: nothing. -/
theorem tenure?_snapshot_of_none {now : UInt64} {place : Coord} (h : ledger.tenure? place = none) :
  (base.applyAll (ledger.snapshot now)).tenure? place = none
  := by
  have hother : ∀ r ∈ ledger.reservations, r.place ≠ place := by
    rintro r hr rfl
    rw [tenure?, hd.find?_eq hr] at h
    cases h
  rw [tenure?_applyAll_of_forall, tenure?, find?, hbase]
  · rfl
  · intro record hrecord
    rw [snapshot_eq, List.mem_append, List.mem_append] at hrecord
    rcases hrecord with (hrecord | hrecord) | hrecord
    · obtain ⟨r, hr, rfl⟩ := List.mem_map.1 hrecord
      exact .inr (hother r hr)
    · obtain ⟨r, hr, rfl⟩ := List.mem_map.1 hrecord
      exact .inr (hother r (List.mem_filter.1 hr).1)
    · exact .inl (kind_moves hrecord)

/-- A snapshot gives every plot its tenure again, as it is written. -/
theorem tenure?_snapshot (now : UInt64) (place : Coord) :
  (base.applyAll (ledger.snapshot now)).tenure? place
    = (ledger.tenure? place).map Tenure.written
  := by
  rcases hfound : ledger.find? place with _ | r
  · have hnone : ledger.tenure? place = none := by
      rw [tenure?, hfound]
      rfl
    rw [tenure?_snapshot_of_none hbase hd hnone, hnone]
    rfl
  obtain rfl : r.place = place := place_of_find? hfound
  have hmem := List.mem_of_find?_eq_some hfound
  have hknown : ledger.tenure? r.place = some r.tenure := by
    rw [tenure?, hfound]
    rfl
  rw [hknown, snapshot_eq, applyAll_append,
    tenure?_applyAll_of_forall fun record hrecord => .inl (kind_moves hrecord), applyAll_append]
  rcases hstanding : r.standing with _ | _
  · rw [tenure?_applyAll_of_forall, tenure?_assignments hbase hd hmem]
    · change _ = some (Tenure.written r.tenure)
      rw [Tenure.written, Reservation.tenure, hstanding]
      rfl
    · intro record hrecord
      right
      intro hplace
      have horphan : r.place ∈ ledger.orphans := by
        rw [← map_place_losses, ← hplace]
        exact List.mem_map_of_mem hrecord
      rw [hd.mem_orphans, standing?, hfound, Option.map_some, hstanding] at horphan
      cases horphan
  · have hlost : r ∈ ledger.orphanReservations :=
      List.mem_filter.2 ⟨hmem, decide_eq_true hstanding⟩
    rw [tenure?_losses hbase hd hlost]
    change _ = some (Tenure.written r.tenure)
    rw [Tenure.written, Reservation.tenure, hstanding]
    rfl

/-- A snapshot keeps the queue of orphans. -/
@[simp]
theorem orphans_snapshot (now : UInt64) :
  (base.applyAll (ledger.snapshot now)).orphans = ledger.orphans
  := by
  have hdistinct : base.Distinct := distinct_of_nil hbase
  have hassigned : (base.applyAll ledger.assignments).orphans = [] := by
    refine applyAll_induct (P := fun after => after.Distinct ∧ after.orphans = []) ?_ ?_ |>.2
    · refine ⟨hdistinct, ?_⟩
      rw [orphans, orphanReservations, hbase]
      rfl
    · rintro before record after hmem ⟨hbefore, horphans⟩ happly
      obtain ⟨old, -, rfl⟩ := List.mem_map.1 hmem
      refine ⟨hbefore.apply happly, ?_⟩
      rw [hbefore.orphans_apply happly, horphans]
      rfl
  have hlost : (base.applyAll (ledger.assignments ++ ledger.losses)).orphans = ledger.orphans := by
    rw [applyAll_append, (hdistinct.applyAll _).orphans_applyAll (accepts_losses hbase hd),
      hassigned, List.nil_append, map_place_losses]
    intro r hr
    obtain ⟨old, -, rfl⟩ := List.mem_map.1 hr
    rfl
  rw [snapshot_eq, applyAll_append, ← hlost]
  unfold moves
  split_ifs <;> rfl

end

/-! ### The cursor -/

/-- The ledger with its cursor at another coordinate. -/
def moveTo (ledger : Ledger) (cursor : Coord) : Ledger :=
  { ledger with cursor := cursor }

/-- A record that does not move the cursor does the same wherever the cursor is. -/
theorem apply_moveTo
    {record : Record} (hk : record.kind ≠ .advance) (ledger : Ledger) (cursor : Coord) :
  (ledger.moveTo cursor).apply record = (ledger.apply record).map (·.moveTo cursor)
  := by
  have hfind : (ledger.moveTo cursor).find? record.place = ledger.find? record.place := rfl
  unfold apply
  rw [hfind]
  rcases hkind : record.kind with _ | _ | _
  · rcases ledger.find? record.place with _ | ⟨_, _, _ | _, _, _⟩ <;> rfl
  · rcases ledger.find? record.place with _ | ⟨_, _, _ | _, _, _⟩ <;> rfl
  · exact absurd hkind hk

/-- Records that do not move the cursor do the same wherever the cursor is. -/
theorem applyAll_moveTo {records : List Record} (hk : ∀ r ∈ records, r.kind ≠ .advance)
    (ledger : Ledger) (cursor : Coord) :
  (ledger.moveTo cursor).applyAll records = (ledger.applyAll records).moveTo cursor
  := by
  induction records generalizing ledger with
  | nil => rfl
  | cons record records ih =>
    rw [List.forall_mem_cons] at hk
    have hmove := apply_moveTo hk.1 ledger cursor
    rcases happly : ledger.apply record with rejection | after
    · rw [happly] at hmove
      rw [applyAll_cons_of_error happly, applyAll_cons_of_error hmove, ih hk.2]
    · rw [happly] at hmove
      rw [applyAll_cons_of_ok happly, applyAll_cons_of_ok hmove, ih hk.2]

/-- Taking a snapshot in gives the same ledger when the cursor is where the snapshot moves
it to and when the cursor is at the origin. -/
theorem applyAll_snapshot_cleared (ledger : Ledger) (now : UInt64) :
  ({ cursor := ledger.cursor } : Ledger).applyAll (ledger.snapshot now)
    = ({} : Ledger).applyAll (ledger.snapshot now)
  := by
  by_cases horigin : ledger.cursor = Coord.origin
  · rw [horigin]
  · have hstay : ∀ r ∈ ledger.assignments ++ ledger.losses, r.kind ≠ .advance := by
      intro r hr
      rcases List.mem_append.1 hr with hr | hr <;>
      · obtain ⟨old, -, rfl⟩ := List.mem_map.1 hr
        nofun
    have hmoved := applyAll_moveTo hstay {} ledger.cursor
    rw [snapshot_eq, applyAll_append, applyAll_append {}]
    change (({} : Ledger).moveTo ledger.cursor |>.applyAll _).applyAll _ = _
    rw [hmoved, moves, if_neg horigin]
    rfl

/-- The lines of a snapshot replay to what the snapshot makes of the cleared ledger, and none
of them is skipped. -/
theorem replay_snapshot {ledger : Ledger} (hd : ledger.Distinct) (now : UInt64) :
  replay ((ledger.snapshot now).map Record.line)
    = { ledger := ({ cursor := ledger.cursor } : Ledger).applyAll (ledger.snapshot now)
        skips := []
        lines := (ledger.snapshot now).length }
  := by
  have hreplay := @foldl_step_of_accepts {} _ (fun r hr => built_snapshot hr)
    (accepts_snapshot rfl hd now)
  rw [replay, hreplay, applyAll_snapshot_cleared, Nat.zero_add]

/-- A snapshot leaves the cursor where it is. -/
@[simp]
theorem cursor_snapshot (ledger : Ledger) (now : UInt64) :
  (({ cursor := ledger.cursor } : Ledger).applyAll (ledger.snapshot now)).cursor = ledger.cursor
  := by
  refine applyAll_induct (P := fun after => after.cursor = ledger.cursor) rfl ?_
  intro before record after hmem hbefore happly
  rcases apply_cases happly with ⟨hk, rfl⟩ | ⟨-, -, rfl⟩
  · rw [snapshot_eq, List.mem_append, List.mem_append] at hmem
    rcases hmem with (hmem | hmem) | hmem
    · obtain ⟨r, -, rfl⟩ := List.mem_map.1 hmem
      cases hk
    · obtain ⟨r, -, rfl⟩ := List.mem_map.1 hmem
      cases hk
    · unfold moves at hmem
      split_ifs at hmem
      · cases hmem
      · rw [List.mem_singleton.1 hmem]
        rfl
  · exact hbefore

end Ledger

end IslandPlots
