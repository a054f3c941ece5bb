import IslandPlots.Proofs.Ledger.Replay
import IslandPlots.Proofs.Ledger.Snapshot

/-!
# The queue of orphans

Reservations stand in the order of their revisions (`Ledger.Ordered`), so orphans come in the
order in which they were given up.  What one operation of an allocator can do to a ledger is
said once (`Ledger.Next`): it keeps the order, though a compaction numbers the reservations
anew; it forgets no plot; and it lets no plot pass one that waits (`Ledger.Next.ahead`).
-/

namespace IslandPlots

namespace Ledger

/-! ### Revisions -/

/-- Reservations stand in the order of the records that made them. -/
structure Ordered (ledger : Ledger) : Prop where
  increasing : ledger.reservations.Pairwise fun r other => r.revision < other.revision
  below : ∀ r ∈ ledger.reservations, r.revision < ledger.revision

/-- A ledger without reservations is ordered. -/
theorem ordered_of_nil {ledger : Ledger} (h : ledger.reservations = []) :
  ledger.Ordered
  := by
  constructor
  · rw [h]
    exact .nil
  · rw [h]
    exact List.forall_mem_nil _

/-- Taking a record in keeps the order: what it supersedes goes to the end. -/
theorem Ordered.apply {ledger after : Ledger} {record : Record} (h : ledger.Ordered)
    (happly : ledger.apply record = .ok after) :
  after.Ordered
  := by
  rcases apply_cases happly with ⟨-, rfl⟩ | ⟨-, -, rfl⟩
  · exact ⟨h.increasing, fun r hr => Nat.lt_succ_of_lt (h.below r hr)⟩
  · constructor
    · apply List.pairwise_append.2
      refine ⟨h.increasing.filter _, List.pairwise_singleton _ _, ?_⟩
      intro r hr new hnew
      rw [List.mem_singleton.1 hnew]
      exact h.below r (List.mem_filter.1 hr).1
    · intro r hr
      rcases List.mem_append.1 hr with hr | hr
      · exact Nat.lt_succ_of_lt (h.below r (List.mem_filter.1 hr).1)
      · rw [List.mem_singleton.1 hr]
        exact Nat.lt_succ_self _

/-- Records keep the order. -/
theorem Ordered.applyAll {ledger : Ledger} (h : ledger.Ordered) (records : List Record) :
  (ledger.applyAll records).Ordered
  := applyAll_induct h fun _ _ _ _ hbefore happly => hbefore.apply happly

/-- A replay is ordered. -/
theorem ordered_replay (lines : List String) :
  (replay lines).ledger.Ordered
  := by
  rw [ledger_replay]
  exact (ordered_of_nil rfl).applyAll _

/-! ### Plots that were handed out -/

/-- A plot that was handed out stays known. -/
theorem tenure?_applyAll_ne_none {ledger : Ledger} {place : Coord}
    (h : ledger.tenure? place ≠ none) (records : List Record) :
  (ledger.applyAll records).tenure? place ≠ none
  := by
  refine applyAll_induct (P := fun after => after.tenure? place ≠ none) h ?_
  intro before record after _ hbefore happly
  rw [tenure?_apply happly]
  split_ifs
  · nofun
  · exact hbefore

/-- A plot that a record assigns is known afterwards, whether the record can be taken in or
not. -/
theorem tenure?_applyAll_of_assign {ledger : Ledger} {records : List Record} {record : Record}
    (hmem : record ∈ records) (hk : record.kind = .assign) :
  (ledger.applyAll records).tenure? record.place ≠ none
  := by
  induction records generalizing ledger with
  | nil => cases hmem
  | cons first records ih =>
    rcases List.mem_cons.1 hmem with rfl | hmem
    · by_cases hallows : allows (ledger.standing? record.place) record.kind = true
      · obtain ⟨after, happly⟩ := exists_apply hallows
        rw [applyAll_cons_of_ok happly]
        apply tenure?_applyAll_ne_none
        rw [tenure?_apply happly, if_pos ⟨by rw [hk]; nofun, rfl⟩]
        nofun
      · apply tenure?_applyAll_ne_none
        rw [hk, allows_assign, not_not, standing?_eq] at hallows
        rintro hnone
        rw [hnone] at hallows
        cases hallows
    · rw [← List.singleton_append, applyAll_append]
      exact ih hmem

/-! ### Numbers -/

/-- Every plot of the ledger is held or waits. -/
theorem length_reservations (ledger : Ledger) :
  ledger.reservations.length = ledger.assignedCount + ledger.orphans.length
  := by
  rw [orphans, List.length_map, orphanReservations, ← List.countP_eq_length_filter, assignedCount,
    List.length_eq_countP_add_countP fun r : Reservation => r.standing = .assigned]
  congr 2
  funext r
  cases r.standing <;> rfl

/-- The number of plots that were given up is the length of their queue. -/
theorem orphanedCount_eq (ledger : Ledger) :
  ledger.orphanedCount = ledger.orphans.length
  := by
  rw [orphanedCount, length_reservations, Nat.add_sub_cancel_left]

/-! ### Waiting -/

/-- One plot waits in the queue of orphans, and another does not wait before it. -/
def Ahead (ledger : Ledger) (place other : Coord) : Prop :=
  ∃ front back, ledger.orphans = front ++ place :: back ∧ other ∉ front

/-- A plot that waits is ahead of one that does not. -/
theorem ahead_of_mem {ledger : Ledger} {place other : Coord} (hplace : place ∈ ledger.orphans)
    (hother : other ∉ ledger.orphans) :
  ledger.Ahead place other
  := by
  obtain ⟨front, back, horphans⟩ := List.append_of_mem hplace
  refine ⟨front, back, horphans, fun hmem => hother ?_⟩
  rw [horphans]
  exact List.mem_append_left _ hmem

/-- The first wanted plot of the queue is not one that waits behind another wanted plot. -/
theorem Ahead.head?_ne {ledger : Ledger} {place other : Coord} (h : ledger.Ahead place other)
    (hne : place ≠ other) {wanted : Coord → Bool} (hwanted : wanted place = true) :
  (ledger.orphans.filter wanted).head? ≠ some other
  := by
  obtain ⟨front, back, horphans, hother⟩ := h
  rw [horphans, List.filter_append, List.filter_cons_of_pos hwanted]
  rcases hfront : front.filter wanted with _ | ⟨first, rest⟩
  · rw [List.nil_append, List.head?_cons]
    exact fun h => hne (Option.some.inj h)
  · have hfirst : first ∈ front.filter wanted := by
      rw [hfront]
      exact List.mem_cons_self
    rw [List.cons_append, List.head?_cons]
    rintro ⟨⟩
    exact hother (List.mem_filter.1 hfirst).1

/-! ### One operation -/

/-- What one operation of an allocator can do to a ledger. -/
inductive Next (before : Ledger) : Ledger → Prop where
  /-- Nothing. -/
  | same : Next before before
  /-- A plot is assigned, and perhaps the cursor is moved. -/
  | assign {place : Coord} {owner : Option String} {now : UInt64} {moves : List Record}
    (hmoves : ∀ r ∈ moves, r.kind = .advance)
    (haccepts : before.Accepts (.assign place owner now :: moves)) :
    Next before (before.applyAll (.assign place owner now :: moves))
  /-- A plot is given up. -/
  | orphan {place : Coord} {now : UInt64} (haccepts : before.Accepts [.orphan place now]) :
    Next before (before.applyAll [.orphan place now])
  /-- The log is compacted. -/
  | compact (now : UInt64) :
    Next before (({ cursor := before.cursor } : Ledger).applyAll (before.snapshot now))

namespace Next

variable {before after : Ledger} (h : Next before after)

include h

/-- An operation keeps the order of revisions. -/
theorem ordered (hordered : before.Ordered) :
  after.Ordered
  := by
  cases h with
  | same => exact hordered
  | assign | orphan => exact hordered.applyAll _
  | compact => exact (ordered_of_nil rfl).applyAll _

variable (hd : before.Distinct)

include hd

/-- An operation leaves one reservation for each plot. -/
theorem distinct :
  after.Distinct
  := by
  cases h with
  | same => exact hd
  | assign | orphan => exact hd.applyAll _
  | compact => exact (distinct_of_nil rfl).applyAll _

/-- An operation forgets no plot. -/
theorem tenure?_ne_none {place : Coord} (hknown : before.tenure? place ≠ none) :
  after.tenure? place ≠ none
  := by
  cases h with
  | same => exact hknown
  | assign | orphan => exact tenure?_applyAll_ne_none hknown _
  | compact =>
    rw [tenure?_snapshot rfl hd, Ne, Option.map_eq_none_iff]
    exact hknown

/-- An operation takes one plot from the queue of orphans, puts one at its end, or leaves
it. -/
theorem orphans_cases :
  after.orphans = before.orphans
    ∨ (∃ place, after.orphans = before.orphans.filter (· ≠ place))
    ∨ ∃ place, after.orphans = before.orphans ++ [place]
  := by
  cases h with
  | same => exact .inl rfl
  | assign hmoves haccepts => exact .inr (.inl ⟨_, hd.orphans_applyAll_assign hmoves haccepts⟩)
  | orphan haccepts =>
    right
    right
    refine ⟨_, hd.orphans_applyAll haccepts ?_⟩
    rw [List.forall_mem_singleton]
    rfl
  | compact now => exact .inl (orphans_snapshot rfl hd now)

/-- An operation lets no plot pass one that waits. -/
theorem ahead {place other : Coord} (hahead : before.Ahead place other)
    (hwaits : place ∈ after.orphans) :
  after.Ahead place other
  := by
  obtain ⟨front, back, horphans, hother⟩ := hahead
  rcases h.orphans_cases hd with hsame | ⟨taken, htaken⟩ | ⟨last, hlast⟩
  · exact ⟨front, back, hsame.trans horphans, hother⟩
  · rw [htaken, List.mem_filter] at hwaits
    rw [Ahead, htaken, horphans, List.filter_append,
      List.filter_cons_of_pos (p := (· ≠ taken)) hwaits.2]
    exact ⟨_, _, rfl, fun hmem => hother (List.mem_filter.1 hmem).1⟩
  · refine ⟨front, back ++ [last], ?_, hother⟩
    rw [hlast, horphans, List.append_assoc, List.cons_append]

end Next

end Ledger

end IslandPlots
