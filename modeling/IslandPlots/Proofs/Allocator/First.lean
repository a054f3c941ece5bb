import IslandPlots.Proofs.Allocator.Forward
import IslandPlots.Proofs.Allocator.Stretch
import IslandPlots.Proofs.Journal.Writable

/-!
# The first plot

On an empty log the search for a plot begins at the last coordinate of the exclusion, so the first
allocation hands out the coordinate one cell further outwards, or there is no plot at all.

Validation limits the number of the rings that the exclusion covers, but not how far out they lie.
When the ring behind them is not representable the settings have no plot (`Settings.plots_eq_nil`),
and every allocation fails (`Allocator.first_plot_exact`).
-/

namespace IslandPlots

/-! ### Where the plots begin -/

namespace Settings

variable {settings : Settings}
  (h : settings.exclusion.rings settings.spacing ≤ settings.spacing.lastRing)

include h

/-- The components of the first plot. -/
theorem head?_plots_eq_some {place : Coord} :
  settings.plots.head? = some place
    ↔ place.x = (settings.exclusion.rings settings.spacing + 1) * settings.spacing.val
      ∧ place.z = -(settings.exclusion.rings settings.spacing * settings.spacing.val)
  := by
  rw [settings.head?_plots h, Coord.next?_ringEnd h, Coord.ofInts?_eq_some, Int.neg_mul]

/-- There is no plot if and only if the first one would lie too far east. -/
theorem plots_eq_nil :
  settings.plots = []
    ↔ 2147483647 < (settings.exclusion.rings settings.spacing + 1) * settings.spacing.val
  := by
  have hpos := settings.spacing.pos
  have hinner : 0 ≤ settings.exclusion.rings settings.spacing * settings.spacing.val :=
    Int.mul_nonneg (Int.natCast_nonneg _) (by omega)
  rw [← List.head?_eq_none_iff, settings.head?_plots h, Coord.next?_ringEnd h,
    Coord.ofInts?_eq_none, Int.neg_mul, Int.add_mul, Int.one_mul]
  unfold Fits
  omega

end Settings

namespace Allocator

variable {J : Type} [Journal J]

/-! ### The first allocation -/

/-- An empty log can be loaded, and amounts to an empty ledger. -/
theorem exists_load_of_empty
    {journal : J} (hempty : Journal.lines journal = .ok []) (settings : Settings) :
  ∃ a notices, load settings journal = .ok (a, notices) ∧ a.Pooled ∧ a.settings = settings
    ∧ a.ledger = {} ∧ a.store.journal = journal
  := by
  unfold load
  rw [Store.load_of_lines hempty]
  exact ⟨_, _, rfl, ⟨Ledger.distinct_replay [], rfl, rfl⟩, rfl, rfl, rfl⟩

namespace Pooled

variable {config : Config} {a : Allocator J} (h : a.Pooled) (hledger : a.ledger = {})

include h hledger

omit [Journal J] in
/-- No orphan waits for the first allocation, and its search begins at the end of the exclusion. -/
theorem searchStart_first :
  a.pool.queue = []
    ∧ searchStart a.settings a.ledger.cursor
      = Coord.ringEnd a.settings.spacing (a.settings.exclusion.rings a.settings.spacing)
  := by
  have hcursor : a.ledger.cursor = Coord.origin := by
    rw [hledger]
  rw [h.pool, hcursor, searchStart_origin, hledger]
  exact ⟨rfl, rfl⟩

variable (hvalid : config.validate = .ok a.settings)

include hvalid

/-- The first allocation hands out the first plot. -/
theorem result_allocate_first
    (hwritable : ∀ lines, (Journal.append a.store.journal lines).result = .ok ()) {place : Coord}
    (hfirst : a.settings.plots.head? = some place) (name : String) (now : UInt64) :
  (a.allocate name now).result = .ok place
  := by
  obtain ⟨hqueue, hstart⟩ := h.searchStart_first hledger
  have hnext : (searchStart a.settings a.ledger.cursor).next? a.settings.spacing = some place := by
    rw [hstart, ← a.settings.head?_plots (rings_le_lastRing hvalid), hfirst]
  have houtside := (List.mem_filter.1 (List.mem_of_head? hfirst)).2
  have hfree : a.isFree place = true := by
    rw [isFree_iff, hledger]
    exact ⟨by simpa using houtside, rfl⟩
  have hchoose := h.choose_of_next? hqueue hnext hfree
  have haccepts : a.ledger.Accepts
      [.assign place (if name = "" then none else some name) now, .advance place now] :=
    accepts_of_isFree hfree _ now (by simp [Record.advance])
  rw [(h.allocate_of_extend hchoose name now).1, Store.appendAll_of_accepts haccepts]
  simp only [hwritable]
  rfl

/-- Without plots the first allocation fails at the end of the exclusion and changes nothing. -/
theorem allocate_of_no_plots
    (hnone : a.settings.plots = []) (name : String) (now : UInt64) :
  (a.allocate name now).result = .error (.exhausted (.edge
      (Coord.ringEnd a.settings.spacing (a.settings.exclusion.rings a.settings.spacing))))
    ∧ (a.allocate name now).state = a
  := by
  obtain ⟨hqueue, hstart⟩ := h.searchStart_first hledger
  have hlast : (searchStart a.settings a.ledger.cursor).next? a.settings.spacing = none := by
    rw [hstart, ← a.settings.head?_plots (rings_le_lastRing hvalid), hnone, List.head?_nil]
  have hexhausted : a.nextCandidate
      = .error (.exhausted (.edge (searchStart a.settings a.ledger.cursor))) := by
    unfold nextCandidate
    rw [Coord.seek_of_next?_eq_none hlast]
    rfl
  rw [← hstart]
  rcases h.allocate_of_nil hqueue name now with
    ⟨failure, hfailed, hresult, hstate⟩ | ⟨place, hfound, -⟩
  · cases hexhausted.symm.trans hfailed
    exact ⟨hresult, hstate⟩
  · cases hexhausted.symm.trans hfound

end Pooled

/-- The first plot of a configuration.  When a valid configuration is opened on an empty log that
accepts writes, the first allocation hands out the coordinate one cell east of the last corner of
the exclusion, if this is representable.  Otherwise the configuration has no plot at all, although
it is valid: the allocation fails at that corner, and nothing changes, so every later one fails in
the same way. -/
theorem first_plot_exact
    {config : Config} {settings : Settings} (hvalid : config.validate = .ok settings) {journal : J}
    (hempty : Journal.lines journal = .ok [])
    (hwritable : ∀ lines, (Journal.append journal lines).result = .ok ()) :
  let spacing := config.spacing.1
  let rings := config.radius.1 / config.spacing.1
  (settings.plots = [] ↔ 2147483647 < (rings + 1) * spacing)
    ∧ ∃ a notices, load settings journal = .ok (a, notices) ∧ ∀ name now,
      (∀ place, (a.allocate name now).result = .ok place
        ↔ place.x = (rings + 1) * spacing ∧ place.z = -(rings * spacing))
      ∧ ((∃ place, (a.allocate name now).result = .ok place) ↔ (rings + 1) * spacing ≤ 2147483647)
      ∧ (2147483647 < (rings + 1) * spacing →
        ∃ edge : Coord, edge.x = rings * spacing ∧ edge.z = -(rings * spacing)
          ∧ (a.allocate name now).result = .error (.exhausted (.edge edge))
          ∧ (a.allocate name now).state = a)
  := by
  intro spacing rings
  obtain ⟨a, notices, hload, hpooled, rfl, hledger, rfl⟩ := exists_load_of_empty hempty settings
  have hlast := rings_le_lastRing hvalid
  have hrings : (a.settings.exclusion.rings a.settings.spacing : Int) = rings :=
    Config.rings_of_validate hvalid
  have hspacing : a.settings.spacing.val = spacing := Config.spacing_of_validate hvalid
  have hnone : a.settings.plots = [] ↔ 2147483647 < (rings + 1) * spacing := by
    rw [Settings.plots_eq_nil hlast, hrings, hspacing]
  have hfirst : ∀ place, a.settings.plots.head? = some place
      ↔ place.x = (rings + 1) * spacing ∧ place.z = -(rings * spacing) := by
    intro place
    rw [Settings.head?_plots_eq_some hlast, hrings, hspacing]
  refine ⟨hnone, a, notices, hload, fun name now => ?_⟩
  cases hplots : a.settings.plots with
  | nil =>
    have hfar := hnone.1 hplots
    obtain ⟨hfailed, hstate⟩ := hpooled.allocate_of_no_plots hledger hvalid hplots name now
    have hunfit : ∀ place : Coord, place.x ≠ (rings + 1) * spacing := by
      intro place hx
      have hfits := place.fits_x
      unfold Fits at hfits
      omega
    obtain ⟨hx, hz⟩ := Coord.ofInts?_eq_some.1 (Coord.coord?_ringEnd hlast)
    rw [hfailed]
    refine ⟨fun place => iff_of_false nofun fun hplace => hunfit place hplace.1, ?_, fun _ => ?_⟩
    · apply iff_of_false _ (Int.not_le.2 hfar)
      rintro ⟨place, hplace⟩
      cases hplace
    · refine ⟨_, ?_, ?_, rfl, hstate⟩
      · rw [hx, ← hrings, ← hspacing]
        rfl
      · rw [hz, ← hrings, ← hspacing, ← Int.neg_mul]
        rfl
  | cons first others =>
    have hfound : a.settings.plots.head? = some first := by
      rw [hplots, List.head?_cons]
    have hresult := hpooled.result_allocate_first hledger hvalid hwritable hfound name now
    have hnear : ¬ 2147483647 < (rings + 1) * spacing := by
      rw [← hnone, hplots]
      nofun
    rw [hresult]
    refine ⟨?_, ?_, fun hfar => absurd hfar hnear⟩
    · intro place
      rw [← hfirst, hfound, Except.ok.injEq, Option.some_inj]
    · exact iff_of_true ⟨first, rfl⟩ (Int.not_lt.1 hnear)

/-- With an exclusion of one ring the first plot lies on the second ring. -/
theorem first_plot_exact_holding :
  let config : Config :=
    { spacing := ⟨10, by decide⟩, radius := ⟨15, by decide⟩, storageDir := "." }
  let settings : Settings :=
    { spacing := ⟨10, by decide, by decide⟩, exclusion := ⟨15⟩, storageDir := "." }
  let journal := FileJournal.holding []
  config.validate = .ok settings ∧ Journal.lines journal = .ok []
    ∧ (∀ lines, (Journal.append journal lines).result = .ok ())
    ∧ ∃ a notices, load settings journal = .ok (a, notices)
      ∧ (a.allocate "ann" 7).result = .ok ⟨20, -10, by decide, by decide⟩
  := by
  intro config settings journal
  have hvalid : config.validate = .ok settings := by
    simp [Config.validate, Exclusion.rings, maxExclusionRings, config, settings]
  have hsound : journal.Sound "." := FileJournal.sound_holding (by simp)
  have hempty : Journal.lines journal = .ok [] := hsound.linked.lines_eq
  have hkeeps : WritableJournal.Writable journal :=
    FileJournal.Writable.mk ⟨".", hsound.linked⟩ rfl rfl
  have hwritable : ∀ lines, (Journal.append journal lines).result = .ok () :=
    WritableJournal.result_append hkeeps
  obtain ⟨-, a, notices, hload, hfirst⟩ := first_plot_exact hvalid hempty hwritable
  exact ⟨hvalid, hempty, hwritable, a, notices, hload, ((hfirst "ann" 7).1 _).2 ⟨rfl, rfl⟩⟩

/-- A configuration is valid although it has no plot: its exclusion covers one ring only, and the
second one lies outside the representable range. -/
theorem first_plot_missing :
  let blocks : Blocks := ⟨2147483647, by decide⟩
  let config : Config := { spacing := blocks, radius := blocks, storageDir := "data" }
  let settings : Settings :=
    { spacing := ⟨2147483647, by decide, by decide⟩
      exclusion := ⟨2147483647⟩
      storageDir := "data" }
  let journal : MemoryJournal := { lines := [] }
  config.validate = .ok settings ∧ settings.plots = [] ∧ Journal.lines journal = .ok []
    ∧ (∀ lines, (Journal.append journal lines).result = .ok ())
    ∧ ∃ a notices edge, load settings journal = .ok (a, notices)
      ∧ (a.allocate "ann" 1).result = .error (.exhausted (.edge edge))
  := by
  intro blocks config settings journal
  have hvalid : config.validate = .ok settings := by
    simp [Config.validate, Exclusion.rings, maxExclusionRings, config, blocks, settings]
  have hnone : settings.plots = [] := by
    have hrings := Exclusion.rings_le_lastRing (Config.radius_le_of_validate hvalid)
      settings.spacing
    rw [Settings.plots_eq_nil hrings]
    decide +kernel
  have hempty : Journal.lines journal = .ok [] := rfl
  obtain ⟨a, notices, hload, hpooled, hsettings, hledger, -⟩ :=
    exists_load_of_empty hempty settings
  rw [← hsettings] at hvalid hnone
  obtain ⟨hfailed, -⟩ := hpooled.allocate_of_no_plots hledger hvalid hnone "ann" 1
  rw [hsettings] at hvalid hnone
  exact ⟨hvalid, hnone, hempty, fun _ => rfl, a, notices, _, hload, hfailed⟩

end Allocator

end IslandPlots
