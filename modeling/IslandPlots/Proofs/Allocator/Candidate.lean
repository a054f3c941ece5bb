import IslandPlots.Proofs.Allocator.Reuse
import IslandPlots.Proofs.Spiral.Search
import Mathlib.Data.List.TakeWhile

/-!
# The next candidate

While the cursor is inside the exclusion, the search along the spiral begins at the last coordinate
that the exclusion covers.  All that it jumps over is representable and covered, so it finds what a
search from the cursor would find (`Allocator.jump_agrees_with_walk`), and that is the first plot
after the cursor that may be handed out (`Allocator.nextCandidate_exact`).  Behind the exclusion it
passes over plots that somebody holds and over nothing else, so it takes at most one step more than
there are such plots (`Allocator.seekWithin_searchStart`).
-/

namespace IslandPlots

namespace Allocator

section

variable {J : Type}

/-- The search for a candidate fails only at the edge of the representable range. -/
theorem exhausted_of_nextCandidate
    {a : Allocator J} {failure : Failure} (h : a.nextCandidate = .error failure) :
  ∃ edge, failure = .exhausted (.edge edge)
  := by
  unfold nextCandidate at h
  rcases hseek : Coord.seek a.settings.spacing a.isFree
    (searchStart a.settings a.ledger.cursor) with edge | place
  · rw [hseek] at h
    cases h
    exact ⟨edge, rfl⟩
  · rw [hseek] at h
    cases h

/-! ### The jump -/

/-- The search begins no earlier on the spiral than at the cell of the cursor. -/
theorem index_le_searchStart
    {settings : Settings}
    (h : settings.exclusion.rings settings.spacing ≤ settings.spacing.lastRing) (cursor : Coord) :
  (cursor.cell settings.spacing).index
    ≤ ((searchStart settings cursor).cell settings.spacing).index
  := by
  unfold searchStart
  dsimp only
  split_ifs with hring
  · exact Coord.index_le_ringEnd h hring
  · exact Nat.le_refl _

variable {config : Config} {a : Allocator J} (hvalid : config.validate = .ok a.settings)

include hvalid

/-- The exclusion ends within the representable rings. -/
theorem rings_le_lastRing :
  a.settings.exclusion.rings a.settings.spacing ≤ a.settings.spacing.lastRing
  := Exclusion.rings_le_lastRing (Config.radius_le_of_validate hvalid) a.settings.spacing

/-- A candidate is a point of the lattice ahead of the cursor. -/
theorem ahead_of_nextCandidate
    {place : Coord} (h : a.nextCandidate = .ok place) :
  a.ledger.cursor.Ahead a.settings.spacing place
  := (Coord.ahead_of_seek (seek_of_nextCandidate h)).of_index_le
    (index_le_searchStart (rings_le_lastRing hvalid) _)

/-- The cells on the rings of the exclusion are representable, and none of their plots may be handed
out. -/
theorem rejected_of_ring_le
    {k : Cell} (h : k.ring ≤ a.settings.exclusion.rings a.settings.spacing) :
  k.Rejected a.settings.spacing a.isFree
  := by
  obtain ⟨c, hc⟩ := Cell.exists_coord? (h.trans (rings_le_lastRing hvalid))
  use c, hc
  rw [isFree, (Coord.contains_of_coord? hc a.settings.exclusion).2 h]
  rfl

/-- The cells that the search jumps over are rejected. -/
theorem rejected_of_index_le
    {k : Cell} (hafter : (a.ledger.cursor.cell a.settings.spacing).Before k)
    (hle : k.index
      ≤ ((searchStart a.settings a.ledger.cursor).cell a.settings.spacing).index) :
  k.Rejected a.settings.spacing a.isFree
  := by
  unfold searchStart at hle
  dsimp only at hle
  split_ifs at hle with hring
  · apply rejected_of_ring_le hvalid
    rw [Cell.cell_of_coord? (Coord.coord?_ringEnd (rings_le_lastRing hvalid))] at hle
    rw [← Cell.ring_ringEnd (a.settings.exclusion.rings a.settings.spacing)]
    exact Cell.ring_mono hle
  · exact absurd (Cell.before_iff.1 hafter) (Nat.not_lt_of_le hle)

/-- What the search reaches is reached from the cursor. -/
theorem reaches_cursor
    {k : Cell}
    (h : (searchStart a.settings a.ledger.cursor).Reaches a.settings.spacing a.isFree k) :
  a.ledger.cursor.Reaches a.settings.spacing a.isFree k
  := by
  apply h.of_passed
  · exact index_le_searchStart (rings_le_lastRing hvalid) _
  · exact fun l => rejected_of_index_le hvalid

/-- The candidate is the first plot after the cursor that may be handed out; there is none when the
spiral leaves the representable range before. -/
theorem nextCandidate_cases :
  (∃ place, a.nextCandidate = .ok place
      ∧ a.ledger.cursor.Finds a.settings.spacing a.isFree place)
    ∨ ∃ edge, a.nextCandidate = .error (.exhausted (.edge edge))
      ∧ a.ledger.cursor.RunsOut a.settings.spacing a.isFree
  := by
  unfold nextCandidate
  rcases hseek : Coord.seek a.settings.spacing a.isFree
    (searchStart a.settings a.ledger.cursor) with edge | place
  · right
    obtain ⟨k, hk, hnone⟩ := Coord.runsOut_of_seek hseek
    exact ⟨edge, rfl, k, reaches_cursor hvalid hk, hnone⟩
  · left
    obtain ⟨k, hk, hfound⟩ := Coord.finds_of_seek hseek
    exact ⟨place, rfl, k, reaches_cursor hvalid hk, hfound⟩

/-- The candidate is what is found after the cursor. -/
theorem nextCandidate_eq_ok_iff {place : Coord} :
  a.nextCandidate = .ok place ↔ a.ledger.cursor.Finds a.settings.spacing a.isFree place
  := by
  rcases nextCandidate_cases hvalid with ⟨found, hnext, hfinds⟩ | ⟨edge, hnext, hout⟩
  · rw [hnext]
    constructor
    · rintro ⟨⟩
      exact hfinds
    · intro h
      rw [hfinds.eq h]
  · rw [hnext]
    exact iff_of_false nofun fun h => h.not_runsOut hout

/-- There is no candidate when the spiral leaves the representable range first. -/
theorem exists_nextCandidate_error_iff :
  (∃ edge, a.nextCandidate = .error (.exhausted (.edge edge)))
    ↔ a.ledger.cursor.RunsOut a.settings.spacing a.isFree
  := by
  rcases nextCandidate_cases hvalid with ⟨found, hnext, hfinds⟩ | ⟨edge, hnext, hout⟩
  · rw [hnext]
    apply iff_of_false _ hfinds.not_runsOut
    rintro ⟨edge, ⟨⟩⟩
  · exact iff_of_true ⟨edge, hnext⟩ hout

/-! ### Behind the exclusion -/

/-- Ahead of where the search begins, only plots that somebody holds may not be handed out. -/
theorem isAssigned_of_ahead
    {place : Coord}
    (hahead : (searchStart a.settings a.ledger.cursor).Ahead a.settings.spacing place)
    (hfree : a.isFree place = false) :
  a.ledger.isAssigned place = true
  := by
  have hlt := Cell.before_iff.1 hahead.before
  have hring : ¬ place.ring a.settings.spacing
      ≤ a.settings.exclusion.rings a.settings.spacing := by
    intro hle
    unfold searchStart at hlt
    dsimp only at hlt
    split_ifs at hlt with hjump
    · exact Nat.not_lt_of_le (Coord.index_le_ringEnd (rings_le_lastRing hvalid) hle) hlt
    · exact hjump ((Cell.ring_mono hlt.le).trans hle)
  have houtside : a.settings.exclusion.contains place = false := by
    rw [Bool.eq_false_iff, Ne,
      Coord.contains_of_coord? (Coord.coord?_cell_of_dvd hahead.dvd_x hahead.dvd_z)]
    exact hring
  by_contra hunheld
  have hwanted : a.isFree place = true := isFree_iff.2 ⟨houtside, Bool.eq_false_iff.2 hunheld⟩
  cases hfree.symm.trans hwanted

/-- The search takes at most one step more than there are plots that somebody holds. -/
theorem seekWithin_searchStart :
  Coord.seekWithin a.settings.spacing a.isFree (a.ledger.assignedCount + 1)
      (searchStart a.settings a.ledger.cursor)
    = some (Coord.seek a.settings.spacing a.isFree (searchStart a.settings a.ledger.cursor))
  := by
  rw [← Ledger.length_plots_assigned]
  apply Coord.seekWithin_eq
  intro place hahead hfree
  apply Ledger.mem_plots_of_standing?
  exact Ledger.isAssigned_iff.1 (isAssigned_of_ahead hvalid hahead hfree)

end

/-- The jump over the exclusion agrees with the plain walk.  The candidate is the plot that a search
finds which goes from the cursor cell by cell, wherever the cursor is, and there is a candidate
exactly when that search finds one; when there is none only the last coordinates of the two searches
may differ.  The reasons are that the exclusion covers exactly the points of the lattice on its
rings, that the walk leads from one representable coordinate to the next as long as it is on these
rings, and that the coordinate to which the search jumps is the corner of the last one. -/
theorem jump_agrees_with_walk
    {config : Config} {a : Allocator J} (hvalid : config.validate = .ok a.settings) :
  let spacing := a.settings.spacing
  let rings := a.settings.exclusion.rings spacing
  let wanted := fun place => !a.settings.exclusion.contains place && !a.ledger.isAssigned place
  let walk := Coord.seek spacing wanted a.ledger.cursor
  (∀ place, a.nextCandidate = .ok place ↔ walk = .ok place)
    ∧ ((∃ edge, a.nextCandidate = .error (.exhausted (.edge edge))) ↔ ∃ edge, walk = .error edge)
    ∧ (∀ place : Coord, spacing.val ∣ place.x → spacing.val ∣ place.z →
      (a.settings.exclusion.contains place = true ↔ place.ring spacing ≤ rings))
    ∧ (∀ c : Coord, (c.cell spacing).next.ring ≤ rings → ∃ d, c.next? spacing = some d)
    ∧ (Coord.ringEnd spacing rings).x = rings * spacing.val
    ∧ (Coord.ringEnd spacing rings).z = -(rings * spacing.val)
  := by
  intro spacing rings wanted walk
  have hrings : rings ≤ spacing.lastRing := rings_le_lastRing hvalid
  obtain ⟨hx, hz⟩ := Coord.ofInts?_eq_some.1 (Coord.coord?_ringEnd hrings)
  refine ⟨fun place => ?_, ?_, fun place hdx hdz => ?_, ?_, hx, hz.trans (Int.neg_mul _ _)⟩
  · exact (nextCandidate_eq_ok_iff hvalid).trans Coord.seek_eq_ok_iff.symm
  · exact (exists_nextCandidate_error_iff hvalid).trans Coord.exists_seek_error_iff.symm
  · exact Coord.contains_of_coord? (Coord.coord?_cell_of_dvd hdx hdz) _
  · intro c hc
    exact Cell.exists_coord? (hc.trans hrings)

/-- From a cursor inside an exclusion of two rings, the jump and the walk come to the second plot
behind it, since the first is assigned.  When the exclusion covers all representable rings, neither
finds a plot. -/
theorem jump_agrees_with_walk_behind :
  let config : Config := { spacing := ⟨10, by decide⟩, radius := ⟨25, by decide⟩, storageDir := "." }
  let settings : Settings :=
    { spacing := ⟨10, by decide, by decide⟩, exclusion := ⟨25⟩, storageDir := "." }
  let log := ["1;30;-20;ASSIGN;ann", "2;-10;3;CURSOR_ADVANCE;"]
  let a : Allocator Unit :=
    { settings, store := { journal := (), ledger := (Ledger.replay log).ledger } }
  let place : Coord := ⟨30, -10, by decide, by decide⟩
  let blocks : Blocks := ⟨2147483647, by decide⟩
  let closed : Config := { spacing := blocks, radius := blocks, storageDir := "." }
  let filled : Settings :=
    { spacing := ⟨2147483647, by decide, by decide⟩, exclusion := ⟨2147483647⟩, storageDir := "." }
  let b : Allocator Unit :=
    { settings := filled
      store := { journal := (), ledger := { cursor := ⟨5, 5, by decide, by decide⟩ } } }
  (config.validate = .ok a.settings
      ∧ a.settings.exclusion.contains a.ledger.cursor = true
      ∧ a.nextCandidate = .ok place
      ∧ Coord.seek a.settings.spacing a.isFree a.ledger.cursor = .ok place)
    ∧ closed.validate = .ok b.settings
    ∧ (∃ edge, b.nextCandidate = .error (.exhausted (.edge edge)))
    ∧ ∃ edge, Coord.seek b.settings.spacing b.isFree b.ledger.cursor = .error edge
  := by
  intro config settings log a place blocks closed filled b
  have hvalid : config.validate = .ok a.settings := by
    simp [Config.validate, Exclusion.rings, maxExclusionRings, config, a, settings]
  have hinside : a.settings.exclusion.contains a.ledger.cursor = true := by
    decide +kernel
  have hfound : a.nextCandidate = .ok place := by
    decide +kernel
  have hvalid' : closed.validate = .ok b.settings := by
    simp [Config.validate, Exclusion.rings, maxExclusionRings, closed, blocks, b, filled]
  have hnone : ∃ edge, b.nextCandidate = .error (.exhausted (.edge edge)) := by
    unfold nextCandidate
    rw [Coord.seek_of_next?_eq_none (by decide +kernel)]
    exact ⟨_, rfl⟩
  obtain ⟨hwalk, -⟩ := jump_agrees_with_walk hvalid
  obtain ⟨-, hexhausted, -⟩ := jump_agrees_with_walk hvalid'
  exact ⟨⟨hvalid, hinside, hfound, (hwalk place).1 hfound⟩, hvalid', hnone, hexhausted.1 hnone⟩

/-! ### Allocations that find no plot -/

variable {J : Type} [Journal J]

/-- An allocation that finds no plot in the pool and none on the spiral writes nothing.  It leaves
everything as it is, but for plots in the pool that may not be handed out. -/
theorem allocate_of_exhausted
    {a : Allocator J} (halive : a.poisoned = false)
    (hpool : ∀ place ∈ a.pool.queue, a.isFree place = false) {failure : Failure}
    (hnext : a.nextCandidate = .error failure) (name : String) (now : UInt64) :
  a.allocate name now
    = .fail failure { a with pool := {} }
      [.noPlot (if name = "" then none else some name) failure]
  := by
  have hchoose : a.choose = (.none failure, { a with pool := {} }) := by
    have hnext' : ({ a with pool := {} } : Allocator J).nextCandidate = .error failure := hnext
    unfold choose
    rw [Pool.takeUsable_of_forall hpool]
    simp only [hnext']
  unfold allocate
  rw [if_neg (by rw [halive]; decide), hchoose]

/-- An allocation fails because there is no plot, which leaves everything as it is, or because the
journal refuses to write. -/
theorem Pooled.failure_of_allocate
    {a : Allocator J} (h : a.Pooled) {name : String} {now : UInt64} {failure : Failure}
    (hfailed : (a.allocate name now).result = .error failure) :
  (a.nextCandidate = .error failure ∧ (a.allocate name now).state = a)
    ∨ ∃ location fault, failure = .storage location fault
  := by
  rcases h.allocate_cases name now with
    ⟨cause, hoffer, hresult, hstate⟩ | ⟨place, moves, -, hfree, hmoves, -, hresult, -⟩
  · left
    obtain rfl : cause = failure := Except.error.inj (hresult.symm.trans hfailed)
    refine ⟨?_, hstate⟩
    unfold offer at hoffer
    split at hoffer
    · cases hoffer
    · exact hoffer
  · right
    exact Store.storage_of_appendAll
      (accepts_of_isFree hfree _ now fun r hr => (hmoves r hr).2) (hresult.symm.trans hfailed)

/-- The search along the spiral is exact, and it ends.  The candidate is the first plot on the spiral
strictly after the cell that the cursor floors to which lies outside the exclusion and nobody holds,
if the spiral is representable up to it.  There is none in all other cases, which are those in which
the spiral leaves the representable range before; then an allocation that finds nothing in the pool
writes nothing and leaves the store.  It drops what may not be handed out from the pool, but an
allocator that was loaded never has such a plot there, whatever was called since and whatever the
journal did, so it stays entirely as it is. -/
theorem nextCandidate_exact
    {config : Config} {a : Allocator J} (hvalid : config.validate = .ok a.settings) :
  let spacing := a.settings.spacing
  let cursor := a.ledger.cursor
  let wanted := fun place => !a.settings.exclusion.contains place && !a.ledger.isAssigned place
  (∀ place, a.nextCandidate = .ok place ↔ cursor.Finds spacing wanted place)
    ∧ ((∃ edge, a.nextCandidate = .error (.exhausted (.edge edge)))
      ↔ ∀ place, ¬ cursor.Finds spacing wanted place)
    ∧ (cursor.RunsOut spacing wanted ↔ ∀ place, ¬ cursor.Finds spacing wanted place)
    ∧ ((Coord.seekWithin spacing wanted (a.ledger.assignedCount + 1)
        (searchStart a.settings cursor)).map
          (Except.mapError fun edge => Failure.exhausted (.edge edge))
      = some a.nextCandidate)
    ∧ (a.poisoned = false → (∀ place ∈ a.pool.queue, wanted place = false) →
      ∀ failure, a.nextCandidate = .error failure → ∀ name now,
        (a.allocate name now).result = .error failure
          ∧ (a.allocate name now).state = { a with pool := {} })
    ∧ ∀ journal start notices moves, load a.settings journal = .ok (start, notices) →
      start.play moves = a → ∀ name now cause,
        (a.allocate name now).result = .error (.exhausted cause) →
        a.nextCandidate = .error (.exhausted cause) ∧ (a.allocate name now).state = a
  := by
  intro spacing cursor wanted
  refine ⟨fun place => nextCandidate_eq_ok_iff hvalid, ?_, Coord.runsOut_iff, ?_, ?_, ?_⟩
  · exact (exists_nextCandidate_error_iff hvalid).trans Coord.runsOut_iff
  · exact congrArg (Option.map _) (seekWithin_searchStart hvalid)
  · intro halive hpool failure hnext name now
    rw [allocate_of_exhausted halive hpool hnext]
    exact ⟨rfl, rfl⟩
  · intro journal start notices moves hload hplay name now cause hfailed
    have hpooled : a.Pooled := hplay ▸ (of_load hload).1.play moves
    rcases hpooled.failure_of_allocate hfailed with hnone | ⟨location, fault, hstorage⟩
    · exact hnone
    · cases hstorage

/-- From a cursor off the lattice and inside the exclusion, the search passes over two plots that
somebody holds. -/
theorem nextCandidate_exact_held :
  let config : Config :=
    { spacing := ⟨10, by decide⟩, radius := ⟨15, by decide⟩, storageDir := "." }
  let settings : Settings :=
    { spacing := ⟨10, by decide, by decide⟩, exclusion := ⟨15⟩, storageDir := "." }
  let records := [Record.assign ⟨20, -10, by decide, by decide⟩ (some "ann") 1,
    Record.assign ⟨20, 0, by decide, by decide⟩ none 2,
    Record.advance ⟨7, -3, by decide, by decide⟩ 3]
  let place : Coord := ⟨20, 10, by decide, by decide⟩
  let a : Allocator MemoryJournal := ofJournal settings { lines := records.map Record.line }
  config.validate = .ok a.settings ∧ a.nextCandidate = .ok place
    ∧ a.ledger.cursor.Finds settings.spacing a.isFree place
  := by
  intro config settings records place a
  have hvalid : config.validate = .ok a.settings := by
    simp [Config.validate, Exclusion.rings, maxExclusionRings, config, a, settings, ofJournal]
  obtain ⟨hfinds, -, -, hwithin, -, -⟩ := nextCandidate_exact hvalid
  have hsteps : Coord.seekWithin a.settings.spacing a.isFree (a.ledger.assignedCount + 1)
      (searchStart a.settings a.ledger.cursor) = some (.ok place) := by
    decide +kernel
  have hnext : a.nextCandidate = .ok place :=
    Option.some.inj (hwithin.symm.trans (congrArg (Option.map _) hsteps))
  exact ⟨hvalid, hnext, (hfinds place).1 hnext⟩

end Allocator

end IslandPlots
