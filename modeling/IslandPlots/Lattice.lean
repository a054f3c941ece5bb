import IslandPlots.Coord

/-!
# The lattice of plots

Plots stand on a square lattice whose step is the configured spacing.  A `Cell` is a pair
of lattice indices; it need not be representable as a `Coord`, since indices times spacing
can leave the 32-bit range.  `Coord.cell` floors a coordinate onto the lattice,
`Cell.coord?` and `Cell.nearest` go back.
-/

namespace IslandPlots

/-- A distance between neighbouring plots: a positive 32-bit number of blocks. -/
structure Spacing where
  val : Int
  pos : 1 ≤ val
  fits : val ≤ 2147483647
deriving DecidableEq

namespace Spacing

/-- The spacing nearest to `n`; in particular one block when `n` is not positive. -/
def ofInt (n : Int) : Spacing where
  val := max 1 (saturate n)
  pos := by omega
  fits := by
    have := fits_saturate n
    unfold Fits at this
    omega

/-- `n` as a spacing, if it is one. -/
def ofInt? (n : Int) : Option Spacing :=
  if h : 1 ≤ n ∧ n ≤ 2147483647 then some ⟨n, h.1, h.2⟩ else none

instance : Inhabited Spacing := ⟨ofInt 1⟩

end Spacing

/-- A cell of the lattice, by its two indices. -/
structure Cell where
  a : Int
  b : Int
deriving DecidableEq, Inhabited

/-- The cell a coordinate floors to: each component is divided by the spacing and rounded
down. -/
def Coord.cell (s : Spacing) (c : Coord) : Cell :=
  ⟨c.x / s.val, c.z / s.val⟩

namespace Cell

/-- The cell under the spawn. -/
def origin : Cell := ⟨0, 0⟩

/-- The coordinate at which a cell stands, unless it is out of range. -/
def coord? (s : Spacing) (k : Cell) : Option Coord :=
  Coord.ofInts? (k.a * s.val) (k.b * s.val)

/-- The representable coordinate nearest to where a cell stands. -/
def nearest (s : Spacing) (k : Cell) : Coord :=
  Coord.nearest (k.a * s.val) (k.b * s.val)

/-- The coordinate at which a cell stands floors to the cell. -/
theorem cell_of_coord? {s : Spacing} {k : Cell} {c : Coord} (h : k.coord? s = some c) :
  c.cell s = k
  := by
  have hs : s.val ≠ 0 := by
    have := s.pos
    omega
  obtain ⟨hx, hz⟩ := Coord.ofInts?_eq_some.1 h
  cases k
  simp only [Coord.cell, hx, hz, Int.mul_ediv_cancel _ hs]

end Cell

/-- Lattice indices of 32-bit numbers are 32-bit numbers. -/
theorem Spacing.ediv_bounds (s : Spacing) {n : Int} (h : Fits n) :
  Fits (n / s.val)
  := by
  have hs := s.pos
  obtain ⟨hl, hu⟩ := h
  constructor
  · apply Int.le_ediv_of_mul_le (by omega)
    have : -2147483648 * s.val ≤ -2147483648 * 1 :=
      Int.mul_le_mul_of_nonpos_left (by omega) hs
    omega
  · rcases Int.le_total 0 n with hn | hn
    · exact Int.le_trans (Int.ediv_le_self _ hn) hu
    · have : n / s.val ≤ 0 / s.val := Int.ediv_le_ediv (by omega) hn
      simp at this
      omega

end IslandPlots
