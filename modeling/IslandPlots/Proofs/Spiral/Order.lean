import IslandPlots.Proofs.Spiral.Outside

/-!
# The order of the spiral

The spiral visits the rings from the inside out and the cells of a ring by their offsets.  This is
the order of the indices (`Cell.before_iff`), so a search along the spiral ends at a point of the
lattice that comes after the cell at which it began, wherever that is (`Coord.ahead_of_seek`).
-/

namespace IslandPlots

namespace Cell

/-- The spiral visits `k` before `l`: the ring of `k` is farther in, or `k` has the smaller offset
on the same ring. -/
def Before (k l : Cell) : Prop :=
  k.ring < l.ring ∨ k.ring = l.ring ∧ k.offset < l.offset

/-- The spiral visits the cells in the order of their indices. -/
theorem before_iff {k l : Cell} :
  k.Before l ↔ k.index < l.index
  := by
  constructor
  · rintro (hring | ⟨hring, hoffset⟩)
    · by_contra hle
      exact absurd (ring_mono (Nat.le_of_not_lt hle)) (Nat.not_le_of_lt hring)
    · rw [index, index, hring]
      omega
  · intro hindex
    rcases Nat.lt_or_eq_of_le (ring_mono hindex.le) with hring | hring
    · exact .inl hring
    · right
      rw [index, index, hring] at hindex
      exact ⟨hring, by omega⟩

end Cell

namespace Coord

variable {s : Spacing}

/-- The spiral visits `d`, a point of the lattice, after the cell that `c` floors to. -/
structure Ahead (s : Spacing) (c d : Coord) : Prop where
  dvd_x : s.val ∣ d.x
  dvd_z : s.val ∣ d.z
  before : (c.cell s).Before (d.cell s)

/-- What is ahead of a coordinate is ahead of those that the spiral visits no later. -/
theorem Ahead.of_index_le
    {b c d : Coord} (h : c.Ahead s d) (hle : (b.cell s).index ≤ (c.cell s).index) :
  b.Ahead s d
  := ⟨h.dvd_x, h.dvd_z, Cell.before_iff.2 (Nat.lt_of_le_of_lt hle (Cell.before_iff.1 h.before))⟩

/-- What is ahead of a coordinate ahead is ahead. -/
theorem Ahead.trans
    {b c d : Coord} (hbc : b.Ahead s c) (hcd : c.Ahead s d) :
  b.Ahead s d
  := hcd.of_index_le (Cell.before_iff.1 hbc.before).le

/-- A step along the spiral leads ahead. -/
theorem ahead_of_next?
    {c d : Coord} (h : c.next? s = some d) :
  c.Ahead s d
  := by
  obtain ⟨hx, hz⟩ := Cell.dvd_of_coord? h
  refine ⟨hx, hz, Cell.before_iff.2 ?_⟩
  simp [cell_of_next? h]

/-- The spiral visits the cells up to a representable ring no later than the last coordinate of the
ring. -/
theorem index_le_ringEnd
    {r : Nat} (h : r ≤ s.lastRing) {c : Coord} (hring : c.ring s ≤ r) :
  (c.cell s).index ≤ ((ringEnd s r).cell s).index
  := by
  have hbound := (Cell.ring_nth_le_iff r (c.cell s).index).1 (by rwa [Cell.nth_index])
  rw [Cell.cell_of_coord? (coord?_ringEnd h), Cell.index_ringEnd]
  omega

/-! ### Searches -/

/-- A search along the spiral ends at the next coordinate, if it is wanted. -/
theorem seek_of_next?
    {wanted : Coord → Bool} {c d : Coord} (hnext : c.next? s = some d) (hwanted : wanted d = true) :
  seek s wanted c = .ok d
  := by
  unfold seek
  split
  next hnone => cases hnone.symm.trans hnext
  next found hfound =>
    cases hfound.symm.trans hnext
    rw [if_pos hwanted]

/-- A search along the spiral ends where the spiral does. -/
theorem seek_of_next?_eq_none
    {wanted : Coord → Bool} {c : Coord} (hnext : c.next? s = none) :
  seek s wanted c = .error c
  := by
  unfold seek
  split
  · rfl
  next found hfound => cases hfound.symm.trans hnext

/-- A search along the spiral ends at a wanted coordinate. -/
theorem wanted_of_seek
    {wanted : Coord → Bool} {c d : Coord} (h : seek s wanted c = .ok d) :
  wanted d = true
  := by
  fun_induction seek s wanted c with
  | case1 => cases h
  | case2 c d _ hwanted =>
    cases h
    exact hwanted
  | case3 c d _ _ ih => exact ih h

/-- A search along the spiral ends ahead of the coordinate at which it began, which may be off the
lattice and on the ring that is not complete. -/
theorem ahead_of_seek
    {wanted : Coord → Bool} {c d : Coord} (h : seek s wanted c = .ok d) :
  c.Ahead s d
  := by
  fun_induction seek s wanted c with
  | case1 => cases h
  | case2 c next hnext _ =>
    cases h
    exact ahead_of_next? hnext
  | case3 c next hnext _ ih => exact (ahead_of_next? hnext).trans (ih h)

end Coord

end IslandPlots
