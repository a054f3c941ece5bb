import IslandPlots.Proofs.Spiral.Index
import Mathlib.Tactic.Use

/-!
# The walk over the representable lattice

Rings up to `Spacing.lastRing` can be represented completely, and the next one cannot be
entered.  So the walk from the spawn visits exactly the lattice up to that ring and then
stops, at the closing corner (`Coord.nth?_enumerates`).
-/

namespace IslandPlots

namespace Spacing

/-- The last ring of which all coordinates are representable. -/
def lastRing (s : Spacing) : Nat :=
  (2147483647 / s.val).toNat

/-- The number of steps from the spawn to the last coordinate of the last ring. -/
def lastIndex (s : Spacing) : Nat :=
  (2 * s.lastRing + 1) ^ 2 - 1

/-- The last ring as a quotient of whole numbers. -/
theorem cast_lastRing (s : Spacing) :
  (s.lastRing : Int) = 2147483647 / s.val
  := by
  have hpos := s.pos
  rw [lastRing, Int.toNat_of_nonneg]
  exact Int.ediv_nonneg (by decide) (by omega)

/-- The last ring ends within the representable range, and the next one does not. -/
theorem lastRing_bounds (s : Spacing) :
  s.lastRing * s.val ≤ 2147483647 ∧ 2147483647 < (s.lastRing + 1) * s.val
  := by
  have hpos := s.pos
  rw [s.cast_lastRing]
  exact ⟨Int.ediv_mul_le _ (by omega), Int.lt_ediv_add_one_mul_self _ (by omega)⟩

/-- Indices of cells up to the last ring lead to representable components. -/
theorem fits_mul {s : Spacing} {n : Int} (h : n.natAbs ≤ s.lastRing) :
  Fits (n * s.val)
  := by
  have hpos := s.pos
  have hlast := s.lastRing_bounds.1
  have hu : n * s.val ≤ s.lastRing * s.val := Int.mul_le_mul_of_nonneg_right (by omega) (by omega)
  have hl : -(s.lastRing : Int) * s.val ≤ n * s.val :=
    Int.mul_le_mul_of_nonneg_right (by omega) (by omega)
  rw [Int.neg_mul] at hl
  unfold Fits
  omega

end Spacing

namespace Cell

variable {s : Spacing}

/-- A cell up to the last ring stands at a coordinate. -/
theorem exists_coord? {k : Cell} (h : k.ring ≤ s.lastRing) :
  ∃ c, k.coord? s = some c
  := by
  unfold ring at h
  have ha : Fits (k.a * s.val) := Spacing.fits_mul (by omega)
  have hb : Fits (k.b * s.val) := Spacing.fits_mul (by omega)
  use ⟨k.a * s.val, k.b * s.val, ha, hb⟩
  exact Coord.ofInts?_eq_some.2 ⟨rfl, rfl⟩

/-- The components of the coordinate at which a cell stands are multiples of the spacing. -/
theorem dvd_of_coord? {k : Cell} {c : Coord} (h : k.coord? s = some c) :
  s.val ∣ c.x ∧ s.val ∣ c.z
  := by
  obtain ⟨hx, hz⟩ := Coord.ofInts?_eq_some.1 h
  rw [hx, hz]
  exact ⟨Int.dvd_mul_left _ _, Int.dvd_mul_left _ _⟩

/-- The cells up to the last ring are those with indices up to the last one. -/
@[simp]
theorem ring_le_lastRing_iff (s : Spacing) (n : Nat) :
  (nth n).ring ≤ s.lastRing ↔ n ≤ s.lastIndex
  := by
  have hpos : 0 < (2 * s.lastRing + 1) ^ 2 := Nat.pow_pos (by omega)
  rw [ring_nth_le_iff, Spacing.lastIndex]
  omega

/-- The walk ends its last ring at the closing corner. -/
@[simp]
theorem nth_lastIndex (s : Spacing) :
  nth s.lastIndex = ringEnd s.lastRing
  := by
  rw [Spacing.lastIndex, ← index_ringEnd, nth_index]

/-- The next cell is out of range. -/
theorem coord?_nth_lastIndex_succ (s : Spacing) :
  (nth (s.lastIndex + 1)).coord? s = none
  := by
  have hnext : (nth (s.lastIndex + 1)).a = s.lastRing + 1 := by
    simp [nth_succ]
  rw [coord?, Coord.ofInts?_eq_none, hnext]
  rintro ⟨⟨-, hu⟩, -⟩
  have := s.lastRing_bounds.2
  omega

end Cell

namespace Coord

/-- The coordinate that the walk from the spawn reaches with `n` steps, if all coordinates on
the way are representable. -/
def nth? (s : Spacing) : Nat → Option Coord
  | 0 => some origin
  | n + 1 => (nth? s n).bind (next? s)

variable {s : Spacing}

/-- The walk goes on until the last index, and is where the walk over the cells is. -/
theorem nth?_eq (s : Spacing) (n : Nat) :
  nth? s n = if n ≤ s.lastIndex then (Cell.nth n).coord? s else none
  := by
  induction n with
  | zero =>
    rw [if_pos (Nat.zero_le _)]
    exact (ofInts?_eq_some.2 (by simp [Cell.nth, Cell.origin, origin])).symm
  | succ n ih =>
    rw [nth?, ih]
    split_ifs with hn hsucc hsucc
    · obtain ⟨c, hc⟩ := Cell.exists_coord? ((Cell.ring_le_lastRing_iff s n).2 hn)
      rw [hc, Option.bind_some, next?, Cell.cell_of_coord? hc, ← Cell.nth_succ]
    · obtain rfl : n = s.lastIndex := by omega
      obtain ⟨c, hc⟩ := Cell.exists_coord? ((Cell.ring_le_lastRing_iff s _).2 hn)
      rw [hc, Option.bind_some, next?, Cell.cell_of_coord? hc, ← Cell.nth_succ,
        Cell.coord?_nth_lastIndex_succ]
    · omega
    · rfl

/-- What the walk visits. -/
theorem nth?_eq_some {n : Nat} {c : Coord} :
  nth? s n = some c ↔ n ≤ s.lastIndex ∧ (Cell.nth n).coord? s = some c
  := by
  rw [nth?_eq]
  split_ifs with h
  · rw [and_iff_right h]
  · simp [h]

/-- The walk has answers up to the last index. -/
theorem nth?_eq_none {n : Nat} :
  nth? s n = none ↔ s.lastIndex < n
  := by
  rw [nth?_eq]
  split_ifs with h
  · obtain ⟨c, hc⟩ := Cell.exists_coord? ((Cell.ring_le_lastRing_iff s n).2 h)
    rw [hc]
    simpa using h
  · simpa using h

/-- The coordinate that the walk reaches with `n` steps lies on the ring of the cell with
index `n`. -/
theorem ring_of_nth? {n : Nat} {c : Coord} (h : nth? s n = some c) :
  c.ring s = (Cell.nth n).ring
  := by
  rw [ring, Cell.cell_of_coord? (nth?_eq_some.1 h).2]

/-- Every step of the walk is one spacing long and goes along one of the axes. -/
theorem nth?_adjacent
    {n : Nat} {c d : Coord} (hc : nth? s n = some c) (hd : nth? s (n + 1) = some d) :
  ((d.x - c.x).natAbs = s.val ∧ d.z = c.z) ∨ (d.x = c.x ∧ (d.z - c.z).natAbs = s.val)
  := by
  obtain ⟨hcx, hcz⟩ := ofInts?_eq_some.1 (nth?_eq_some.1 hc).2
  obtain ⟨hdx, hdz⟩ := ofInts?_eq_some.1 (nth?_eq_some.1 hd).2
  have hpos := s.pos
  have hone : ∀ n : Int, n.natAbs = 1 → ((n * s.val).natAbs : Int) = s.val := by
    intro n hn
    rw [Int.natAbs_mul, hn]
    omega
  rw [hcx, hcz, hdx, hdz, Cell.nth_succ, ← Int.sub_mul, ← Int.sub_mul]
  rcases (Cell.nth n).next_adjacent with ⟨ha, hb⟩ | ⟨ha, hb⟩
  · exact .inl ⟨hone _ ha, by rw [hb]⟩
  · exact .inr ⟨by rw [ha], hone _ hb⟩

/-- The walk reaches each cell up to the last ring, once. -/
theorem existsUnique_nth? {k : Cell} (h : k.ring ≤ s.lastRing) :
  ∃! n, ∃ c, nth? s n = some c ∧ c.x = k.a * s.val ∧ c.z = k.b * s.val
  := by
  obtain ⟨c, hc⟩ := Cell.exists_coord? h
  refine ⟨k.index, ⟨c, ?_, ofInts?_eq_some.1 hc⟩, ?_⟩
  · apply nth?_eq_some.2
    rw [← Cell.ring_le_lastRing_iff, Cell.nth_index]
    exact ⟨h, hc⟩
  · rintro n ⟨d, hd, hstands⟩
    have hcell := Cell.cell_of_coord? (nth?_eq_some.1 hd).2
    rw [Cell.cell_of_coord? (ofInts?_eq_some.2 hstands)] at hcell
    rw [hcell, Cell.index_nth]

/-- The walk from the spawn enumerates the lattice.  With `R` the last ring that can be
represented, it has exactly `(2 * R + 1) ^ 2 - 1` steps and ends at the corner
`(R * s, -R * s)`; it visits every cell of the rings from `1` to `R` once and nothing else; it
is on ring `r` during the `8 * r` steps from `(2 * r - 1) ^ 2` on, so the rings follow one
another; and every step is one spacing long and goes along one axis. -/
theorem nth?_enumerates (s : Spacing) :
  let R := s.lastRing
  (R : Int) = 2147483647 / s.val
    ∧ (∀ n, nth? s n = none ↔ (2 * R + 1) ^ 2 - 1 < n)
    ∧ (∃ c, nth? s ((2 * R + 1) ^ 2 - 1) = some c ∧ c.x = R * s.val ∧ c.z = -(R * s.val))
    ∧ (∀ a b : Int, max a.natAbs b.natAbs ≤ R → ¬ (a = 0 ∧ b = 0) →
      ∃! n, ∃ c, nth? s n = some c ∧ c.x = a * s.val ∧ c.z = b * s.val)
    ∧ (∀ n c, nth? s (n + 1) = some c → ∃ a b : Int, max a.natAbs b.natAbs ≤ R
      ∧ ¬ (a = 0 ∧ b = 0) ∧ c.x = a * s.val ∧ c.z = b * s.val)
    ∧ (∀ r n c, 1 ≤ r → nth? s n = some c →
      (c.ring s = r ↔ (2 * r - 1) ^ 2 ≤ n ∧ n < (2 * r - 1) ^ 2 + 8 * r))
    ∧ (∀ m n c d, m ≤ n → nth? s m = some c → nth? s n = some d → c.ring s ≤ d.ring s)
    ∧ ∀ n c d, nth? s n = some c → nth? s (n + 1) = some d →
      ((d.x - c.x).natAbs = s.val ∧ d.z = c.z) ∨ (d.x = c.x ∧ (d.z - c.z).natAbs = s.val)
  := by
  refine ⟨s.cast_lastRing, fun n => nth?_eq_none, ?_, ?_, ?_, ?_, ?_, fun n c d => nth?_adjacent⟩
  · have hring : (Cell.nth s.lastIndex).ring ≤ s.lastRing :=
      (Cell.ring_le_lastRing_iff s _).2 (Nat.le_refl _)
    obtain ⟨c, hc⟩ := Cell.exists_coord? hring
    refine ⟨c, nth?_eq_some.2 ⟨Nat.le_refl _, hc⟩, ?_⟩
    rw [Cell.nth_lastIndex] at hc
    rw [← Int.neg_mul]
    exact ofInts?_eq_some.1 hc
  · intro a b hR _
    exact existsUnique_nth? (k := ⟨a, b⟩) hR
  · intro n c hc
    obtain ⟨hn, hstands⟩ := nth?_eq_some.1 hc
    refine ⟨(Cell.nth (n + 1)).a, (Cell.nth (n + 1)).b, (Cell.ring_le_lastRing_iff s _).2 hn, ?_,
      ofInts?_eq_some.1 hstands⟩
    rintro ⟨ha, hb⟩
    have hzero : (Cell.nth (n + 1)).ring = 0 := by
      simp [Cell.ring, ha, hb]
    have hindex := Cell.index_nth (n + 1)
    rw [Cell.ring_eq_zero.1 hzero] at hindex
    cases hindex
  · intro r n c hr hc
    rw [ring_of_nth? hc, Cell.ring_eq_iff (by omega), Cell.index_nth]
  · intro m n c d hmn hc hd
    rw [ring_of_nth? hc, ring_of_nth? hd]
    apply Cell.ring_mono
    simpa using hmn

end Coord

end IslandPlots
