import IslandPlots.Proofs.Allocator.Restart

/-!
# The issued plots are a stretch of the spiral

An allocator that began with an empty log has handed out a beginning of the plots of the
spiral, and its cursor is at the last of them (`Ledger.Stretch`).  A search from there finds
the next plot of the spiral and no other (`Allocator.getElem?_of_nextCandidate`), so an
allocation that is acknowledged makes the beginning longer by that plot, and every other step
leaves it (`Allocator.Settled.stretch_step`).
-/

namespace IslandPlots

namespace Ledger

/-- The plots with a reservation are those of `issued`, which is a beginning of `plots`, and
the cursor is at the last of them. -/
structure Stretch (plots issued : List Coord) (ledger : Ledger) : Prop where
  beginning : issued <+: plots
  known : ∀ place, ledger.tenure? place ≠ none ↔ place ∈ issued
  cursor : ledger.cursor = issued.getLast?.getD Coord.origin

/-- Nothing is issued in the empty ledger. -/
theorem stretch_empty (plots : List Coord) :
  ({} : Ledger).Stretch plots []
  where
  beginning := List.nil_prefix
  known place := by simp [tenure?, find?]
  cursor := rfl

namespace Stretch

variable {plots issued : List Coord} {ledger : Ledger} (h : ledger.Stretch plots issued)

include h

/-- A ledger that knows the same plots and has the same cursor is as far. -/
theorem of_known
    {after : Ledger} (hknown : ∀ place, after.tenure? place ≠ none ↔ ledger.tenure? place ≠ none)
    (hcursor : after.cursor = ledger.cursor) :
  after.Stretch plots issued
  := ⟨h.beginning, fun place => (hknown place).trans (h.known place), hcursor.trans h.cursor⟩

/-- A record about a known plot leaves the ledger as far as it is. -/
theorem applyAll_singleton
    {record : Record} (haccepts : ledger.Accepts [record]) (hk : record.kind ≠ .advance)
    (hplace : ledger.tenure? record.place ≠ none) :
  (ledger.applyAll [record]).Stretch plots issued
  := by
  apply h.of_known _ (cursor_applyAll_of_forall (by simpa using hk))
  intro place
  by_cases heq : record.place = place
  · subst heq
    rw [tenure?_applyAll_cons haccepts hk (by simp)]
    exact iff_of_true (Option.some_ne_none _) hplace
  · rw [tenure?_applyAll_of_forall (by simp [heq])]

/-- A snapshot leaves the ledger as far as it is. -/
theorem applyAll_snapshot
    (hdistinct : ledger.Distinct) (now : UInt64) :
  (({ cursor := ledger.cursor } : Ledger).applyAll (ledger.snapshot now)).Stretch plots issued
  := by
  apply h.of_known _ (cursor_snapshot ledger now)
  intro place
  rw [tenure?_snapshot rfl hdistinct, Ne, Option.map_eq_none_iff]

/-- The next plot makes the beginning longer. -/
theorem concat_beginning
    {place : Coord} (hnext : plots[issued.length]? = some place) :
  issued ++ [place] <+: plots
  := by
  rw [List.prefix_iff_eq_take, List.length_append, List.length_singleton, List.take_add_one,
    ← List.prefix_iff_eq_take.1 h.beginning, hnext]
  rfl

/-- The next plot is a new one. -/
theorem tenure?_of_next
    (hnodup : plots.Nodup) {place : Coord} (hnext : plots[issued.length]? = some place) :
  ledger.tenure? place = none
  := by
  have hconcat := hnodup.sublist (h.concat_beginning hnext).sublist
  by_contra hknown
  have hmem := (h.known place).1 hknown
  exact (List.nodup_append.1 hconcat).2.2 place hmem place (List.mem_singleton_self place) rfl

/-- The assignment of the next plot together with the move of the cursor to it makes the
beginning longer. -/
theorem extend
    {place : Coord} (hnext : plots[issued.length]? = some place) {owner : Option String}
    {now : UInt64} (haccepts : ledger.Accepts [.assign place owner now, .advance place now]) :
  (ledger.applyAll [.assign place owner now, .advance place now]).Stretch plots
    (issued ++ [place])
  where
  beginning := h.concat_beginning hnext
  known other := by
    rw [List.mem_append, List.mem_singleton, ← h.known]
    by_cases heq : place = other
    · subst heq
      rw [tenure?_applyAll_assign (by simp [Record.advance]) haccepts]
      exact iff_of_true (Option.some_ne_none _) (.inr rfl)
    · rw [tenure?_applyAll_of_forall (by simp [Record.assign, Record.advance, heq])]
      simp [Ne.symm heq]
  cursor := by
    rw [cursor_applyAll_assign haccepts, List.getLast?_concat]
    rfl

end Stretch

end Ledger

namespace Allocator

/-- From the spawn the search begins at the last coordinate of the exclusion. -/
theorem searchStart_origin (settings : Settings) :
  searchStart settings Coord.origin
    = Coord.ringEnd settings.spacing (settings.exclusion.rings settings.spacing)
  := by
  have horigin : Coord.origin.ring settings.spacing = 0 := by
    simp [Coord.ring, Coord.cell, Coord.origin, Cell.ring]
  unfold searchStart
  rw [horigin]
  exact if_pos (Nat.zero_le _)

/-- The search goes on from the last coordinate before the plots that were not issued. -/
theorem next?_searchStart
    {config : Config} {settings : Settings} (hvalid : config.validate = .ok settings)
    {issued : List Coord} (h : issued <+: settings.plots) :
  (searchStart settings (issued.getLast?.getD Coord.origin)).next? settings.spacing
    = settings.plots[issued.length]?
  := by
  rcases List.eq_nil_or_concat issued with rfl | ⟨before, last, rfl⟩
  · have hrings := Exclusion.rings_le_lastRing (Config.radius_le_of_validate hvalid)
      settings.spacing
    rw [List.getLast?_nil, Option.getD_none, searchStart_origin, List.length_nil,
      ← List.head?_eq_getElem?, settings.head?_plots hrings]
  · obtain ⟨rest, hrest⟩ := h
    have hlast : settings.plots[before.length]? = some last := by
      rw [← hrest, List.concat_eq_append]
      simp
    have houtside := (List.mem_filter.1 (List.mem_of_getElem? hlast)).2
    rw [Settings.getElem?_plots] at hlast
    have hring : ¬ last.ring settings.spacing ≤ settings.exclusion.rings settings.spacing := by
      rw [Coord.ring_of_nth? hlast, Cell.ring_nth_le_iff, ← Coord.contains_of_nth? hlast]
      simpa using houtside
    unfold searchStart
    rw [List.concat_eq_append, List.getLast?_concat, Option.getD_some, if_neg hring,
      List.length_append, List.length_singleton, Settings.getElem?_plots, ← Nat.add_assoc,
      Coord.nth?, hlast, Option.bind_some]

/-- A plot that the search finds is the one after those that were issued. -/
theorem getElem?_of_nextCandidate
    {J : Type} {config : Config} {a : Allocator J} (hvalid : config.validate = .ok a.settings)
    {issued : List Coord} (h : a.ledger.Stretch a.settings.plots issued) {place : Coord}
    (hfound : a.nextCandidate = .ok place) :
  a.settings.plots[issued.length]? = some place
  := by
  have hsearch := next?_searchStart hvalid h.beginning
  rw [← h.cursor] at hsearch
  have hseek := seek_of_nextCandidate hfound
  rcases hnext : a.settings.plots[issued.length]? with _ | next
  · rw [hnext] at hsearch
    cases (Coord.seek_of_next?_eq_none hsearch).symm.trans hseek
  · rw [hnext] at hsearch
    have houtside := (List.mem_filter.1 (List.mem_of_getElem? hnext)).2
    have hnew := h.tenure?_of_next a.settings.nodup_plots hnext
    have hfree : a.isFree next = true := by
      rw [isFree_iff]
      refine ⟨by simpa using houtside, ?_⟩
      rw [Bool.eq_false_iff, Ne, Ledger.isAssigned_iff, Ledger.standing?_eq, hnew]
      nofun
    rw [Coord.seek_of_next? hsearch hfree] at hseek
    exact congrArg some (Except.ok.inj hseek)

variable {J : Type} [Journal J]

namespace Pooled

variable {config : Config} {a : Allocator J} (h : a.Pooled) {issued : List Coord}
  (hstretch : a.ledger.Stretch a.settings.plots issued)

include h hstretch

/-- A release leaves the ledger as far as it is. -/
theorem stretch_release
    (place : Coord) (now : UInt64) :
  (a.release place now).state.ledger.Stretch a.settings.plots issued
  := by
  rcases h.release_cases place now with ⟨-, -, hstate⟩ | ⟨hassigned, -, hstate⟩
  · rw [hstate]
    exact hstretch
  · rw [hstate]
    rcases a.ledger_appended [.orphan place now] with
      ⟨failure, -, hledger⟩ | ⟨-, haccepts, hledger⟩
    · rw [hledger]
      exact hstretch
    · rw [hledger]
      apply hstretch.applyAll_singleton haccepts nofun
      exact Ledger.tenure?_ne_none_of_standing? (Ledger.isAssigned_iff.1 hassigned)

/-- A compaction leaves the ledger as far as it is. -/
theorem stretch_compact
    (now : UInt64) :
  (a.compact now).state.ledger.Stretch a.settings.plots issued
  := by
  rw [(h.compact_eq now).2]
  change (a.store.compact now).state.ledger.Stretch _ _
  rcases a.store.compact_cases now with ⟨failure, journal, -, hstate⟩ | ⟨-, journal, hstate⟩
  · rw [hstate]
    exact hstretch
  · rw [hstate]
    exact hstretch.applyAll_snapshot h.distinct now

/-- An allocation that takes an orphan leaves the ledger as far as it is. -/
theorem stretch_reuse
    {place : Coord} {queue : List Coord} (hqueue : a.pool.queue = place :: queue)
    (name : String) (now : UInt64) :
  (a.allocate name now).state.ledger.Stretch a.settings.plots issued
    ∧ ∀ other, (a.allocate name now).result = .ok other →
      a.ledger.standing? other = some .orphaned
  := by
  have horphaned : a.ledger.standing? place = some .orphaned := by
    apply ((Pool.mem_ofLedger h.distinct).1 _).1
    · exact a.settings.exclusion
    · rw [← h.pool, hqueue]
      exact List.mem_cons_self
  obtain ⟨hresult, hstate⟩ := h.allocate_of_cons hqueue name now
  rw [hresult, hstate]
  rcases a.ledger_appended [.assign place (if name = "" then none else some name) now] with
    ⟨failure, hwritten, hledger⟩ | ⟨hwritten, haccepts, hledger⟩
  · rw [hwritten, hledger]
    refine ⟨hstretch, ?_⟩
    intro other hother
    cases hother
  · rw [hwritten, hledger]
    constructor
    · apply hstretch.applyAll_singleton haccepts nofun
      exact Ledger.tenure?_ne_none_of_standing? horphaned
    · intro other hother
      cases hother
      exact horphaned

/-- An allocation that is acknowledged while no orphan waits makes the beginning longer by the
plot that it returns. -/
theorem stretch_extend
    (hvalid : config.validate = .ok a.settings) (hqueue : a.pool.queue = []) (name : String)
    (now : UInt64) :
  (a.allocate name now).state.ledger.Stretch a.settings.plots
      (issued ++ (a.allocate name now).result.toOption.toList)
    ∧ ∀ other, (a.allocate name now).result = .ok other → a.ledger.standing? other = none
  := by
  rcases h.allocate_of_nil hqueue name now with
    ⟨failure, -, hresult, hstate⟩ | ⟨place, hfound, hresult, hstate⟩
  · rw [hresult, hstate]
    constructor
    · rw [Except.toOption, Option.toList_none, List.append_nil]
      exact hstretch
    · intro other hother
      cases hother
  · have hnext := getElem?_of_nextCandidate hvalid hstretch hfound
    rw [hresult, hstate]
    rcases a.ledger_appended
        [.assign place (if name = "" then none else some name) now, .advance place now] with
      ⟨failure, hwritten, hledger⟩ | ⟨hwritten, haccepts, hledger⟩
    · rw [hwritten, hledger]
      constructor
      · rw [Except.map, Except.toOption, Option.toList_none, List.append_nil]
        exact hstretch
      · intro other hother
        cases hother
    · rw [hwritten, hledger]
      refine ⟨hstretch.extend hnext haccepts, ?_⟩
      intro other hother
      cases hother
      rw [Ledger.standing?_eq, hstretch.tenure?_of_next a.settings.nodup_plots hnext]
      rfl

end Pooled

variable [LawfulJournal J] [ReopenableJournal J]

open ReopenableJournal (Started)

/-- The ledger of an allocator that was opened on an empty log is empty. -/
theorem ledger_of_started
    {config : Config} {a : Allocator J} (h : Started config a)
    (hempty : Journal.lines a.store.journal = .ok []) :
  a.ledger = {}
  := by
  obtain ⟨hcoherent, hclean⟩ := ReopenableJournal.coherent_of_started h
  have hheld := hempty.symm.trans (LawfulJournal.lines_eq hcoherent.consistent.sound)
  have hledger := hcoherent.consistent.ledger_eq (LawfulJournal.not_stuck_of_clean hclean)
  rw [← Except.ok.inj hheld] at hledger
  exact hledger.symm

variable [HazardousJournal J]

/-- The plot that an allocation of the step takes from the spiral: the one that it returns,
unless that waited to be handed out again. -/
def Event.issued? (a : Allocator J) : Event J → Option Coord
  | .call (.allocate name now) =>
    (a.allocate name now).result.toOption.filter
      fun place => a.ledger.standing? place ≠ some .orphaned
  | _ => none

/-- The plots that the allocations of a run take from the spiral, in the order of the run. -/
def issued (a : Allocator J) : List (Event J) → List Coord
  | [] => []
  | event :: events => (event.issued? a).toList ++ issued (a.step event) events

/-- A tame step keeps the settings. -/
theorem Settled.settings_step
    {config : Config} {a : Allocator J} (h : a.Settled config) {event : Event J}
    (htame : event.Tame config) :
  (a.step event).settings = a.settings
  := Except.ok.inj ((h.step htame).valid.symm.trans h.valid)

/-- A step makes the beginning longer by the plot that it takes from the spiral. -/
theorem Settled.stretch_step
    {config : Config} {a : Allocator J} (h : a.Settled config) {issued : List Coord}
    (hstretch : a.ledger.Stretch a.settings.plots issued) {event : Event J}
    (htame : event.Tame config) :
  (a.step event).ledger.Stretch a.settings.plots (issued ++ (event.issued? a).toList)
  := by
  have hpooled := h.coherent.pooled
  have hnothing : ∀ {after : Ledger}, after.Stretch a.settings.plots issued →
      after.Stretch a.settings.plots (issued ++ (none : Option Coord).toList) := by
    intro after hafter
    rw [Option.toList_none, List.append_nil]
    exact hafter
  cases event with
  | call call =>
    cases call with
    | allocate name now =>
      change (a.allocate name now).state.ledger.Stretch a.settings.plots
        (issued ++ ((a.allocate name now).result.toOption.filter
          fun place => a.ledger.standing? place ≠ some .orphaned).toList)
      rcases hqueue : a.pool.queue with _ | ⟨place, queue⟩
      · obtain ⟨hafter, hnew⟩ := hpooled.stretch_extend hstretch h.valid hqueue name now
        rcases hresult : (a.allocate name now).result with failure | other
        · rw [hresult] at hafter
          exact hafter
        · rw [hresult] at hafter
          have hstanding := hnew other hresult
          rw [Except.toOption, Option.filter_some_pos (by simp [hstanding])]
          exact hafter
      · obtain ⟨hafter, hold⟩ := hpooled.stretch_reuse hstretch hqueue name now
        rcases hresult : (a.allocate name now).result with failure | other
        · exact hnothing hafter
        · have hstanding := hold other hresult
          rw [Except.toOption, Option.filter_some_neg (by simp [hstanding])]
          exact hnothing hafter
    | release place now => exact hnothing (hpooled.stretch_release hstretch place now)
    | compact now => exact hnothing (hpooled.stretch_compact hstretch now)
    | ownerOf | isAssigned | stats => exact hnothing hstretch
  | hazard hazard => exact hnothing hstretch
  | reopen spacing radius =>
    obtain ⟨rfl, rfl⟩ := htame
    rw [Allocator.step, h.reopen_eq.2]
    exact hnothing hstretch

/-- A run makes the beginning longer by the plots that it takes from the spiral. -/
theorem Settled.stretch_run
    {config : Config} {a : Allocator J} (h : a.Settled config) {issued : List Coord}
    (hstretch : a.ledger.Stretch a.settings.plots issued) {events : List (Event J)}
    (htame : ∀ event ∈ events, event.Tame config) :
  (a.run events).ledger.Stretch a.settings.plots (issued ++ a.issued events)
  := by
  induction events generalizing a issued with
  | nil =>
    rw [Allocator.issued, List.append_nil]
    exact hstretch
  | cons event events ih =>
    rw [List.forall_mem_cons] at htame
    have hsame := h.settings_step htame.1
    have hstep := h.stretch_step hstretch htame.1
    rw [← hsame] at hstep
    rw [Allocator.issued, ← List.append_assoc, ← hsame]
    exact ih (h.step htame.1) hstep htame.2

/-- The issued plots are a stretch of the spiral.  Whatever is called on an allocator that was
opened on an empty log, whatever befalls the journal without leaving bytes behind, and however
often the allocator is opened anew under its configuration: the plots that allocations took
from the spiral are the first plots of the spiral in its order, just these have a reservation,
and the cursor is at the last of them, or at the origin when there is none.  They are points of
the lattice and at least one spacing apart. -/
theorem issued_stretch
    {config : Config} {a : Allocator J} (h : Started config a)
    (hempty : Journal.lines a.store.journal = .ok []) {events : List (Event J)}
    (htame : ∀ event ∈ events, event.Tame config) :
  let issued := a.issued events
  let ledger := (a.run events).ledger
  let spacing := a.settings.spacing
  issued = a.settings.plots.take issued.length
    ∧ (∀ place, ledger.find? place ≠ none ↔ place ∈ issued)
    ∧ ledger.cursor = issued.getLast?.getD Coord.origin
    ∧ issued.Nodup
    ∧ (∀ place ∈ issued, spacing.val ∣ place.x ∧ spacing.val ∣ place.z)
    ∧ ∀ place ∈ issued, ∀ other ∈ issued, place ≠ other → spacing.val ≤ place.distance other
  := by
  intro issued ledger spacing
  have hsettled := settled_of_started h
  have hempty' : a.ledger.Stretch a.settings.plots [] := by
    rw [ledger_of_started h hempty]
    exact Ledger.stretch_empty _
  have hstretch : ledger.Stretch a.settings.plots issued := hsettled.stretch_run hempty' htame
  have hlattice : ∀ place ∈ issued, spacing.val ∣ place.x ∧ spacing.val ∣ place.z := by
    intro place hplace
    obtain ⟨n, hn⟩ := a.settings.exists_nth?_of_mem_plots (hstretch.beginning.subset hplace)
    exact Coord.dvd_of_nth? hn
  refine ⟨List.prefix_iff_eq_take.1 hstretch.beginning, fun place => ?_, hstretch.cursor,
    a.settings.nodup_plots.sublist hstretch.beginning.sublist, hlattice, ?_⟩
  · rw [← hstretch.known, Ledger.tenure?, Ne, Ne, Option.map_eq_none_iff]
  · intro place hplace other hother hne
    exact Coord.le_distance_of_dvd (hlattice place hplace) (hlattice other hother) hne

/-- Around an exclusion of one ring, an allocation is refused, another one takes a plot, which
is released after the allocator was opened anew and handed out again, and a third one goes on
along the spiral.  So the first two plots outside are issued. -/
theorem issued_stretch_holding :
  let config : Config :=
    { spacing := ⟨10, by decide⟩, radius := ⟨15, by decide⟩, storageDir := "." }
  let first : Coord := ⟨20, -10, by decide, by decide⟩
  let second : Coord := ⟨20, 0, by decide, by decide⟩
  let events : List (Event FileJournal) := [.hazard ⟨5, false⟩, .call (.allocate "ann" 1),
    .call (.allocate "ann" 2), .reopen config.spacing config.radius, .call (.release first 3),
    .call (.allocate "bob" 4), .call (.compact 5), .call (.allocate "carol" 6)]
  ∃ a, Started config a
    ∧ a.issued events = [first, second]
    ∧ a.settings.plots.take 2 = [first, second]
    ∧ (∀ place, (a.run events).ledger.find? place ≠ none ↔ place ∈ [first, second])
    ∧ (a.run events).ledger.cursor = second
  := by
  intro config first second events
  let settings : Settings :=
    { spacing := ⟨10, by decide, by decide⟩, exclusion := ⟨15⟩, storageDir := "." }
  let a := ofJournal settings (FileJournal.holding [])
  have hvalid : config.validate = .ok settings := by
    simp [Config.validate, Exclusion.rings, maxExclusionRings, config, settings]
  have hstarted : Started config a := FileJournal.started_holding hvalid rfl (by simp)
  have hempty : Journal.lines a.store.journal = .ok [] :=
    (FileJournal.sound_holding (by simp)).linked.lines_eq
  have htame : ∀ event ∈ events, event.Tame config := by
    simp only [events, List.forall_mem_cons]
    exact ⟨rfl, trivial, trivial, ⟨rfl, rfl⟩, trivial, trivial, trivial, trivial, by simp⟩
  have hissued : a.issued events = [first, second] := by
    decide +kernel
  obtain ⟨hbeginning, hknown, hcursor, -⟩ := issued_stretch hstarted hempty htame
  rw [hissued] at hbeginning hknown hcursor
  exact ⟨a, hstarted, hissued, hbeginning.symm, hknown, hcursor⟩

end Allocator

end IslandPlots
