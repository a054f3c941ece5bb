import IslandPlots.Ledger
import Mathlib.Data.List.Nodup
import Mathlib.Tactic.SplitIfs
import Mathlib.Tactic.Use

/-!
# Taking one record into a ledger

What a record can do to a ledger is said once (`Ledger.apply_cases`): it moves the cursor,
or it supersedes the reservation of its plot.  Everything that is asked of a ledger follows
its records through these two changes: the reservation of a plot, its standing, its tenure
(what is known of it apart from the number of the record), the queue of orphans and the
cursor.
-/

namespace IslandPlots

/-- What is known of a plot, apart from the number of the record that said it. -/
structure Tenure where
  standing : Standing
  owner : Option String
  changed : UInt64
deriving DecidableEq

/-- A reservation without the number of its record. -/
def Reservation.tenure (r : Reservation) : Tenure where
  standing := r.standing
  owner := r.owner
  changed := r.changed

/-- The tenure that a record begins when it supersedes a reservation. -/
def Record.tenure (record : Record) : Tenure where
  standing := if record.kind = .assign then .assigned else .orphaned
  owner := if record.kind = .assign then record.owner else none
  changed := record.stamp

/-- The reservation that a record makes as the record with a given number. -/
def Record.reservation (record : Record) (revision : Nat) : Reservation where
  place := record.place
  owner := record.tenure.owner
  standing := record.tenure.standing
  changed := record.stamp
  revision := revision

namespace Ledger

/-! ### The two changes -/

/-- A plot can be assigned unless someone holds it. -/
@[simp]
theorem allows_assign {standing : Option Standing} :
  allows standing .assign = true ↔ standing ≠ some .assigned
  := decide_eq_true_iff

/-- A plot can be given up if someone holds it. -/
@[simp]
theorem allows_orphan {standing : Option Standing} :
  allows standing .orphan = true ↔ standing = some .assigned
  := decide_eq_true_iff

/-- A record that is taken in moves the cursor, or it supersedes the reservation of its
plot, which then has a standing that allows it. -/
theorem apply_cases {ledger after : Ledger} {record : Record}
    (h : ledger.apply record = .ok after) :
  (record.kind = .advance
      ∧ after = { ledger with cursor := record.place, revision := ledger.revision + 1 })
    ∨ (record.kind ≠ .advance ∧ allows (ledger.standing? record.place) record.kind = true
      ∧ after = ledger.supersede (record.reservation ledger.revision))
  := by
  unfold apply at h
  rcases hk : record.kind with _ | _ | _ <;> simp only [hk] at h
  · right
    split at h
    · cases h
    next _ hfind =>
    cases h
    refine ⟨nofun, ?_, ?_⟩
    · apply allows_assign.2
      intro hstanding
      obtain ⟨⟨place, owner, standing, changed, revision⟩, hfound, rfl⟩ :=
        Option.map_eq_some_iff.1 hstanding
      exact hfind _ _ _ _ hfound
    · simp [Record.reservation, Record.tenure, hk]
  · right
    split at h
    · cases h
    · cases h
    next _ _ _ _ _ hfound =>
    cases h
    refine ⟨nofun, ?_, ?_⟩
    · apply allows_orphan.2
      rw [standing?, hfound]
      rfl
    · simp [Record.reservation, Record.tenure, hk]
  · left
    cases h
    exact ⟨rfl, rfl⟩

/-- The standing of the plot allows a record that is taken in. -/
theorem allows_of_apply {ledger after : Ledger} {record : Record}
    (h : ledger.apply record = .ok after) :
  allows (ledger.standing? record.place) record.kind = true
  := by
  rcases apply_cases h with ⟨hk, -⟩ | ⟨-, hallows, -⟩
  · rw [hk]
    rfl
  · exact hallows

/-- A record that is taken in is numbered. -/
theorem revision_apply {ledger after : Ledger} {record : Record}
    (h : ledger.apply record = .ok after) :
  after.revision = ledger.revision + 1
  := by
  rcases apply_cases h with ⟨-, rfl⟩ | ⟨-, -, rfl⟩ <;> rfl

/-- A record is taken in when the standing of its plot allows it. -/
theorem exists_apply {ledger : Ledger} {record : Record}
    (h : allows (ledger.standing? record.place) record.kind = true) :
  ∃ after, ledger.apply record = .ok after
  := by
  unfold apply
  rcases hk : record.kind with _ | _ | _ <;> rw [hk] at h <;> simp only
  · split
    next hfound =>
      rw [allows_assign, standing?, hfound] at h
      exact absurd rfl h
    · exact ⟨_, rfl⟩
  · rw [allows_orphan, standing?] at h
    split
    next hfound =>
      rw [hfound] at h
      cases h
    next hfound =>
      rw [hfound] at h
      cases h
    · exact ⟨_, rfl⟩
  · exact ⟨_, rfl⟩

/-! ### Reservations -/

/-- Superseding a reservation replaces that of its plot and leaves the others. -/
theorem find?_supersede (ledger : Ledger) (r : Reservation) (place : Coord) :
  (ledger.supersede r).find? place = if place = r.place then some r else ledger.find? place
  := by
  unfold find? supersede
  simp only [List.find?_append, List.find?_filter]
  split_ifs with hplace
  · subst hplace
    have hnone : ledger.reservations.find?
        (fun a => decide (decide (a.place ≠ r.place) = true ∧ decide (a.place = r.place) = true))
        = none := by
      rw [List.find?_eq_none]
      intro a _
      simp
    rw [hnone]
    simp
  · have hsame : (fun a : Reservation =>
        decide (decide (a.place ≠ r.place) = true ∧ decide (a.place = place) = true))
        = fun a => decide (a.place = place) := by
      funext a
      simp only [ne_eq, decide_not, Bool.not_eq_eq_eq_not, Bool.not_true,
        decide_eq_false_iff_not, decide_eq_true_eq, decide_eq_decide, and_iff_right_iff_imp]
      rintro rfl
      exact hplace
    rw [hsame, List.find?_singleton]
    have hother : decide (r.place = place) = false := by
      simpa using Ne.symm hplace
    rw [if_neg (by simp [hother]), Option.or_none]

/-- The reservation that is found for a plot is one of the plot. -/
theorem place_of_find? {ledger : Ledger} {place : Coord} {r : Reservation}
    (h : ledger.find? place = some r) :
  r.place = place
  := by
  simpa using List.find?_some h

/-! ### Tenures and standings -/

/-- What is known of a plot. -/
def tenure? (ledger : Ledger) (place : Coord) : Option Tenure :=
  (ledger.find? place).map Reservation.tenure

/-- The standing of a plot is that of its tenure. -/
theorem standing?_eq (ledger : Ledger) (place : Coord) :
  ledger.standing? place = (ledger.tenure? place).map Tenure.standing
  := by
  rw [standing?, tenure?, Option.map_map]
  rfl

/-- A plot is held when its tenure says so. -/
theorem isAssigned_iff {ledger : Ledger} {place : Coord} :
  ledger.isAssigned place = true ↔ ledger.standing? place = some .assigned
  := by
  rw [isAssigned, decide_eq_true_iff]

/-- A plot with a standing has a tenure. -/
theorem tenure?_ne_none_of_standing? {ledger : Ledger} {place : Coord} {standing : Standing}
    (h : ledger.standing? place = some standing) :
  ledger.tenure? place ≠ none
  := by
  intro hnone
  rw [standing?_eq, hnone] at h
  cases h

/-- Taking a record in begins a tenure of its plot, unless the record moves the cursor. -/
theorem tenure?_apply {ledger after : Ledger} {record : Record}
    (h : ledger.apply record = .ok after) (place : Coord) :
  after.tenure? place
    = if record.kind ≠ .advance ∧ place = record.place then some record.tenure
      else ledger.tenure? place
  := by
  rcases apply_cases h with ⟨hk, rfl⟩ | ⟨hk, -, rfl⟩
  · rw [if_neg (by simp [hk])]
    rfl
  · rw [tenure?, find?_supersede]
    by_cases hplace : place = record.place
    · rw [if_pos (show place = (record.reservation ledger.revision).place from hplace),
        if_pos ⟨hk, hplace⟩]
      rfl
    · rw [if_neg (show place ≠ (record.reservation ledger.revision).place from hplace),
        if_neg (by simp [hplace])]
      rfl

/-- Taking a record in changes the standing of its plot as the check of records has it. -/
theorem standing?_apply {ledger after : Ledger} {record : Record}
    (h : ledger.apply record = .ok after) :
  after.standing? = fun place =>
    if place = record.place then standingAfter (ledger.standing? record.place) record.kind
    else ledger.standing? place
  := by
  funext place
  simp only [standing?_eq, tenure?_apply h]
  by_cases hplace : place = record.place
  · subst hplace
    rcases hk : record.kind with _ | _ | _ <;> simp [standingAfter, Record.tenure, hk]
  · simp [hplace]

/-! ### One reservation for each plot -/

/-- No plot has two reservations. -/
def Distinct (ledger : Ledger) : Prop :=
  (ledger.reservations.map (·.place)).Nodup

/-- A ledger without reservations has no two for a plot. -/
theorem distinct_of_nil {ledger : Ledger} (h : ledger.reservations = []) :
  ledger.Distinct
  := by
  rw [Distinct, h]
  exact List.nodup_nil

/-- Superseding a reservation leaves one for each plot. -/
theorem Distinct.supersede {ledger : Ledger} (h : ledger.Distinct) (r : Reservation) :
  (ledger.supersede r).Distinct
  := by
  unfold Distinct Ledger.supersede
  rw [List.map_append, List.map_singleton, List.nodup_append]
  refine ⟨?_, List.nodup_singleton _, ?_⟩
  · exact h.sublist (List.filter_sublist.map _)
  · intro place hplace other hother heq
    rw [List.mem_singleton] at hother
    obtain ⟨old, hold, rfl⟩ := List.mem_map.1 hplace
    have := (List.mem_filter.1 hold).2
    simp [heq, hother] at this

/-- Taking a record in leaves one reservation for each plot. -/
theorem Distinct.apply {ledger after : Ledger} {record : Record} (h : ledger.Distinct)
    (happly : ledger.apply record = .ok after) :
  after.Distinct
  := by
  rcases apply_cases happly with ⟨-, rfl⟩ | ⟨-, -, rfl⟩
  · exact h
  · exact h.supersede _

/-- A reservation in the ledger is the one that is found for its plot. -/
theorem Distinct.find?_eq {ledger : Ledger} (h : ledger.Distinct) {r : Reservation}
    (hr : r ∈ ledger.reservations) :
  ledger.find? r.place = some r
  := by
  rcases hfound : ledger.find? r.place with _ | found
  · have := List.find?_eq_none.1 hfound r hr
    simp at this
  · have hmem := List.mem_of_find?_eq_some hfound
    rw [List.inj_on_of_nodup_map h hmem hr (place_of_find? hfound)]

/-! ### Orphans -/

/-- The plots of a given standing, in the order of the reservations. -/
def plots (ledger : Ledger) (standing : Standing) : List Coord :=
  (ledger.reservations.filter fun r => r.standing = standing).map (·.place)

/-- The plots of a standing after a reservation has been superseded: its plot leaves the list, and
comes last if it has the standing again. -/
theorem plots_supersede (ledger : Ledger) (r : Reservation) (standing : Standing) :
  (ledger.supersede r).plots standing
    = (ledger.plots standing).filter (· ≠ r.place)
      ++ if r.standing = standing then [r.place] else []
  := by
  unfold plots supersede
  simp only [List.filter_append, List.map_append, List.filter_map, List.filter_filter,
    Function.comp_def]
  congr 1
  · congr 2
    funext old
    exact Bool.and_comm _ _
  · by_cases hr : r.standing = standing
    · rw [if_pos hr, List.filter_cons_of_pos (by simpa using hr)]
      rfl
    · rw [if_neg hr, List.filter_cons_of_neg (by simpa using hr)]
      rfl

/-- The orphans after a reservation has been superseded: its plot leaves the queue, and
comes last if it is an orphan again. -/
theorem orphans_supersede (ledger : Ledger) (r : Reservation) :
  (ledger.supersede r).orphans
    = ledger.orphans.filter (· ≠ r.place) ++ if r.standing = .orphaned then [r.place] else []
  := ledger.plots_supersede r .orphaned

/-- A plot is listed under its standing. -/
theorem mem_plots_of_standing? {ledger : Ledger} {standing : Standing} {place : Coord}
    (h : ledger.standing? place = some standing) :
  place ∈ ledger.plots standing
  := by
  obtain ⟨r, hfound, hr⟩ := Option.map_eq_some_iff.1 h
  apply List.mem_map.2
  use r
  constructor
  · apply List.mem_filter.2
    exact ⟨List.mem_of_find?_eq_some hfound, by simpa using hr⟩
  · exact place_of_find? hfound

/-- As many plots are listed as held as somebody holds. -/
@[simp]
theorem length_plots_assigned (ledger : Ledger) :
  (ledger.plots .assigned).length = ledger.assignedCount
  := by
  rw [plots, List.length_map, ← List.countP_eq_length_filter, assignedCount]

/-- The plots of a given standing are those that the reservations give it to. -/
theorem Distinct.mem_plots {ledger : Ledger} (h : ledger.Distinct) {standing : Standing}
    {place : Coord} :
  place ∈ ledger.plots standing ↔ ledger.standing? place = some standing
  := by
  constructor
  · intro hmem
    obtain ⟨r, hr, rfl⟩ := List.mem_map.1 hmem
    obtain ⟨hr, hstanding⟩ := List.mem_filter.1 hr
    rw [standing?, h.find?_eq hr, Option.map_some]
    simpa using hstanding
  · exact mem_plots_of_standing?

/-- No plot of a given standing is listed twice. -/
theorem Distinct.nodup_plots {ledger : Ledger} (h : ledger.Distinct) (standing : Standing) :
  (ledger.plots standing).Nodup
  := h.sublist (List.filter_sublist.map _)

/-- The orphans are the plots that were given up. -/
theorem Distinct.mem_orphans {ledger : Ledger} (h : ledger.Distinct) {place : Coord} :
  place ∈ ledger.orphans ↔ ledger.standing? place = some .orphaned
  := h.mem_plots

/-- No orphan is in the queue twice. -/
theorem Distinct.nodup_orphans {ledger : Ledger} (h : ledger.Distinct) :
  ledger.orphans.Nodup
  := h.nodup_plots .orphaned

/-- Taking a record in takes its plot from the queue of orphans, puts it at the end of the
queue, or leaves the queue as it was. -/
theorem Distinct.orphans_apply {ledger after : Ledger} {record : Record} (h : ledger.Distinct)
    (happly : ledger.apply record = .ok after) :
  after.orphans = match record.kind with
    | .assign => ledger.orphans.filter (· ≠ record.place)
    | .orphan => ledger.orphans ++ [record.place]
    | .advance => ledger.orphans
  := by
  rcases apply_cases happly with ⟨hk, rfl⟩ | ⟨hk, hallows, rfl⟩
  · rw [hk]
    rfl
  · rw [orphans_supersede]
    rcases hkind : record.kind with _ | _ | _
    · have hstanding : (record.reservation ledger.revision).standing = .assigned := by
        simp [Record.reservation, Record.tenure, hkind]
      rw [if_neg (by rw [hstanding]; nofun), List.append_nil]
      rfl
    · have hstanding : (record.reservation ledger.revision).standing = .orphaned := by
        simp [Record.reservation, Record.tenure, hkind]
      rw [if_pos hstanding, List.filter_eq_self.2]
      · rfl
      · intro place hplace
        rw [decide_eq_true_iff]
        rintro rfl
        rw [hkind, allows_orphan] at hallows
        rw [h.mem_orphans] at hplace
        cases hplace.symm.trans hallows
    · exact absurd hkind hk

end Ledger

end IslandPlots
