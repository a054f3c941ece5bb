import IslandPlots.Lattice

/-!
# The spawn exclusion

Around the spawn lies a square in which no plot is handed out.
-/

namespace IslandPlots

/-- The square of the points at Chebyshev distance at most `radius` from the spawn. -/
structure Exclusion where
  /-- Half the side of the square, in blocks; the border belongs to the square. -/
  radius : Nat
deriving DecidableEq, Inhabited

namespace Exclusion

/-- Whether a coordinate lies in the excluded square. -/
def contains (e : Exclusion) (c : Coord) : Bool :=
  c.distance Coord.origin ≤ e.radius

/-- The number of the last ring of the lattice that lies in the excluded square. -/
def rings (e : Exclusion) (s : Spacing) : Nat :=
  e.radius / s.val.toNat

end Exclusion

end IslandPlots
