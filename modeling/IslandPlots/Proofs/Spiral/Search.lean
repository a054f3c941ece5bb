import IslandPlots.Proofs.Spiral.Order

/-!
# What a search along the spiral finds

The order of the spiral says what a search has to find, without a word about its steps.  It finds
the first wanted coordinate after the cell at which it begins, if the cells up to it are all
representable (`Coord.Finds`, `Coord.seek_eq_ok_iff`); otherwise the spiral leaves the
representable range first, and the search fails (`Coord.RunsOut`, `Coord.exists_seek_error_iff`).
A search has no counter.  It ends because it never comes to a coordinate twice: it takes at most
one step more than there are unwanted coordinates ahead (`Coord.seekWithin_eq`).
-/

namespace IslandPlots

namespace Cell

/-- A cell is representable, and the coordinate at which it stands is not wanted. -/
def Rejected (s : Spacing) (wanted : Coord → Bool) (k : Cell) : Prop :=
  ∃ c, k.coord? s = some c ∧ wanted c = false

/-- A cell at a wanted coordinate is not rejected. -/
theorem not_rejected_of_wanted
    {s : Spacing} {wanted : Coord → Bool} {k : Cell} {c : Coord} (h : k.coord? s = some c)
    (hwanted : wanted c = true) :
  ¬ k.Rejected s wanted
  := by
  rintro ⟨d, hd, hunwanted⟩
  obtain rfl := Option.some.inj (h.symm.trans hd)
  cases hwanted.symm.trans hunwanted

/-- A cell out of the representable range is not rejected. -/
theorem not_rejected_of_none
    {s : Spacing} {wanted : Coord → Bool} {k : Cell} (h : k.coord? s = none) :
  ¬ k.Rejected s wanted
  := by
  rintro ⟨d, hd, -⟩
  cases h.symm.trans hd

end Cell

namespace Coord

variable {s : Spacing} {wanted : Coord → Bool}

/-- The spiral visits `k` after the cell that `c` floors to, and the cells in between are all
rejected. -/
structure Reaches (s : Spacing) (wanted : Coord → Bool) (c : Coord) (k : Cell) : Prop where
  before : (c.cell s).Before k
  passed : ∀ l : Cell, (c.cell s).Before l → l.Before k → l.Rejected s wanted

/-- On the spiral `d` is the first wanted coordinate after the cell that `c` floors to, and all
cells up to it are representable. -/
def Finds (s : Spacing) (wanted : Coord → Bool) (c d : Coord) : Prop :=
  ∃ k : Cell, c.Reaches s wanted k ∧ k.coord? s = some d ∧ wanted d = true

/-- After the cell that `c` floors to the spiral comes to a cell that is not representable before it
comes to a wanted coordinate. -/
def RunsOut (s : Spacing) (wanted : Coord → Bool) (c : Coord) : Prop :=
  ∃ k : Cell, c.Reaches s wanted k ∧ k.coord? s = none

/-! ### Cells that are reached -/

/-- The next cell is reached. -/
theorem reaches_next (c : Coord) :
  c.Reaches s wanted (c.cell s).next
  := by
  constructor
  · simp [Cell.before_iff]
  · intro l hafter hbefore
    rw [Cell.before_iff] at hafter hbefore
    rw [Cell.index_next] at hbefore
    omega

/-- What is reached from `c` is reached from an earlier `b`, if all cells after that of `b` and up
to that of `c` are rejected. -/
theorem Reaches.of_passed
    {b c : Coord} {k : Cell} (h : c.Reaches s wanted k)
    (hle : (b.cell s).index ≤ (c.cell s).index)
    (hpassed : ∀ l : Cell, (b.cell s).Before l → l.index ≤ (c.cell s).index →
      l.Rejected s wanted) :
  b.Reaches s wanted k
  := by
  constructor
  · rw [Cell.before_iff]
    exact Nat.lt_of_le_of_lt hle (Cell.before_iff.1 h.before)
  · intro l hafter hbefore
    rcases Nat.lt_or_ge (c.cell s).index l.index with hlt | hge
    · exact h.passed l (Cell.before_iff.2 hlt) hbefore
    · exact hpassed l hafter hge

/-- What is reached from the next coordinate is reached, if that one is not wanted. -/
theorem Reaches.of_next?
    {c d : Coord} {k : Cell} (h : d.Reaches s wanted k) (hnext : c.next? s = some d)
    (hunwanted : wanted d = false) :
  c.Reaches s wanted k
  := by
  have hcell := cell_of_next? hnext
  apply h.of_passed
  · simp [hcell]
  · intro l hafter hle
    rw [Cell.before_iff] at hafter
    rw [hcell, Cell.index_next] at hle
    have hl : l = (c.cell s).next := by
      apply Cell.index_injective
      rw [Cell.index_next]
      omega
    rw [hl]
    exact ⟨d, hnext, hunwanted⟩

/-- Only one cell that is not rejected is reached. -/
theorem Reaches.eq
    {c : Coord} {k l : Cell} (hk : c.Reaches s wanted k) (hl : c.Reaches s wanted l)
    (hk' : ¬ k.Rejected s wanted) (hl' : ¬ l.Rejected s wanted) :
  k = l
  := by
  apply Cell.index_injective
  rcases Nat.lt_trichotomy k.index l.index with hlt | heq | hgt
  · exact absurd (hl.passed k hk.before (Cell.before_iff.2 hlt)) hk'
  · exact heq
  · exact absurd (hk.passed l hl.before (Cell.before_iff.2 hgt)) hl'

/-! ### The result of a search -/

/-- A search passes over rejected cells until it reaches one at a wanted coordinate, or one that is
not representable. -/
theorem exists_reaches_seek (c : Coord) :
  ∃ k : Cell, c.Reaches s wanted k ∧ match seek s wanted c with
    | .ok d => k.coord? s = some d ∧ wanted d = true
    | .error _ => k.coord? s = none
  := by
  fun_induction seek s wanted c with
  | case1 c hnone => exact ⟨_, reaches_next c, hnone⟩
  | case2 c next hnext hwanted => exact ⟨_, reaches_next c, hnext, hwanted⟩
  | case3 c next hnext hunwanted ih =>
    obtain ⟨k, hk, hend⟩ := ih
    exact ⟨k, hk.of_next? hnext (Bool.eq_false_iff.2 hunwanted), hend⟩

/-- A search that succeeds has found the first wanted coordinate. -/
theorem finds_of_seek
    {c d : Coord} (h : seek s wanted c = .ok d) :
  c.Finds s wanted d
  := by
  obtain ⟨k, hk, hend⟩ := exists_reaches_seek c
  rw [h] at hend
  exact ⟨k, hk, hend⟩

/-- A search that fails has come to the end of the representable range. -/
theorem runsOut_of_seek
    {c edge : Coord} (h : seek s wanted c = .error edge) :
  c.RunsOut s wanted
  := by
  obtain ⟨k, hk, hend⟩ := exists_reaches_seek c
  rw [h] at hend
  exact ⟨k, hk, hend⟩

/-- There is one first wanted coordinate. -/
theorem Finds.eq
    {c d e : Coord} (hd : c.Finds s wanted d) (he : c.Finds s wanted e) :
  d = e
  := by
  obtain ⟨k, hk, hd, hwanted⟩ := hd
  obtain ⟨l, hl, he, hwanted'⟩ := he
  obtain rfl := hk.eq hl (Cell.not_rejected_of_wanted hd hwanted)
    (Cell.not_rejected_of_wanted he hwanted')
  exact Option.some.inj (hd.symm.trans he)

/-- The spiral does not leave the representable range before it comes to the first wanted
coordinate. -/
theorem Finds.not_runsOut
    {c d : Coord} (h : c.Finds s wanted d) :
  ¬ c.RunsOut s wanted
  := by
  rintro ⟨l, hl, hnone⟩
  obtain ⟨k, hk, hd, hwanted⟩ := h
  obtain rfl := hk.eq hl (Cell.not_rejected_of_wanted hd hwanted)
    (Cell.not_rejected_of_none hnone)
  cases hnone.symm.trans hd

/-- A search succeeds with the first wanted coordinate. -/
theorem seek_eq_ok_iff {c d : Coord} :
  seek s wanted c = .ok d ↔ c.Finds s wanted d
  := by
  constructor
  · exact finds_of_seek
  · intro h
    rcases hseek : seek s wanted c with edge | found
    · exact absurd (runsOut_of_seek hseek) h.not_runsOut
    · rw [(finds_of_seek hseek).eq h]

/-- A search fails when the spiral leaves the representable range first. -/
theorem exists_seek_error_iff {c : Coord} :
  (∃ edge, seek s wanted c = .error edge) ↔ c.RunsOut s wanted
  := by
  constructor
  · rintro ⟨edge, h⟩
    exact runsOut_of_seek h
  · intro h
    rcases hseek : seek s wanted c with edge | found
    · exact ⟨edge, rfl⟩
    · exact absurd h (finds_of_seek hseek).not_runsOut

/-- The spiral leaves the representable range first when there is no first wanted coordinate. -/
theorem runsOut_iff {c : Coord} :
  c.RunsOut s wanted ↔ ∀ d, ¬ c.Finds s wanted d
  := by
  constructor
  · intro h d hfinds
    exact hfinds.not_runsOut h
  · intro h
    rcases hseek : seek s wanted c with edge | found
    · exact runsOut_of_seek hseek
    · exact absurd (finds_of_seek hseek) (h found)

/-! ### The length of a search -/

/-- A search along the spiral that is broken off after a number of steps. -/
def seekWithin (s : Spacing) (wanted : Coord → Bool) : Nat → Coord → Option (Except Coord Coord)
  | 0, _ => none
  | steps + 1, c =>
    match c.next? s with
    | none => some (.error c)
    | some d => if wanted d then some (.ok d) else seekWithin s wanted steps d

/-- A search ends within one step more than there are unwanted coordinates ahead. -/
theorem seekWithin_eq
    {c : Coord} {unwanted : List Coord}
    (h : ∀ d, c.Ahead s d → wanted d = false → d ∈ unwanted) :
  seekWithin s wanted (unwanted.length + 1) c = some (seek s wanted c)
  := by
  fun_induction seek s wanted c generalizing unwanted with
  | case1 c hnone =>
    unfold seekWithin
    rw [hnone]
  | case2 c next hnext hwanted =>
    unfold seekWithin
    rw [hnext]
    exact if_pos hwanted
  | case3 c next hnext hunwanted ih =>
    have hahead := ahead_of_next? hnext
    have hmem : next ∈ unwanted := h next hahead (Bool.eq_false_iff.2 hunwanted)
    -- The search does not come back to `next`, so it can be taken off the list.
    have hrest : ∀ d, next.Ahead s d → wanted d = false → d ∈ unwanted.erase next := by
      intro d hd hwanted
      have hne : d ≠ next := by
        rintro rfl
        exact Nat.lt_irrefl _ (Cell.before_iff.1 hd.before)
      exact (List.mem_erase_of_ne hne).2 (h d (hahead.trans hd) hwanted)
    have hlength : unwanted.length = (unwanted.erase next).length + 1 := by
      have hpos := List.length_pos_of_mem hmem
      rw [List.length_erase_of_mem hmem]
      omega
    unfold seekWithin
    rw [hnext, hlength, ← ih hrest]
    exact if_neg hunwanted

end Coord

end IslandPlots
