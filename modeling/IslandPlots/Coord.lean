/-!
# Plot coordinates

A plot is named by its centre, a point `(x, z)` of the world measured in blocks.  Both
components are signed 32-bit numbers, and a `Coord` carries the proof of it, so the
arithmetic of the other modules is on integers and only the return to a `Coord` can fail.
-/

namespace IslandPlots

/-- `n` is a signed 32-bit number. -/
def Fits (n : Int) : Prop :=
  -2147483648 ≤ n ∧ n ≤ 2147483647

instance (n : Int) : Decidable (Fits n) :=
  inferInstanceAs (Decidable (_ ∧ _))

/-- The signed 32-bit number nearest to `n`. -/
def saturate (n : Int) : Int :=
  max (-2147483648) (min n 2147483647)

/-- The nearest 32-bit number is one. -/
theorem fits_saturate (n : Int) :
  Fits (saturate n)
  := by
  unfold Fits saturate
  omega

/-- A 32-bit number is the nearest to itself. -/
theorem saturate_of_fits {n : Int} (h : Fits n) :
  saturate n = n
  := by
  unfold Fits at h
  unfold saturate
  omega

/-- Zero is a 32-bit number. -/
theorem fits_zero :
  Fits 0
  := by
  decide

/-- A signed 32-bit number of blocks. -/
abbrev Blocks := { n : Int // Fits n }

/-- A point of the world, in blocks. -/
structure Coord where
  /-- Blocks to the east of the spawn. -/
  x : Int
  /-- Blocks to the south of the spawn. -/
  z : Int
  fits_x : Fits x
  fits_z : Fits z
deriving DecidableEq

namespace Coord

/-- The spawn point. -/
def origin : Coord where
  x := 0
  z := 0
  fits_x := fits_zero
  fits_z := fits_zero

/-- The coordinate with given components. -/
def ofBlocks (x z : Blocks) : Coord :=
  ⟨x.1, z.1, x.2, z.2⟩

instance : Inhabited Coord := ⟨origin⟩

/-- The coordinate with components `x` and `z`, if both are 32-bit numbers. -/
def ofInts? (x z : Int) : Option Coord :=
  if h : Fits x ∧ Fits z then some ⟨x, z, h.1, h.2⟩ else none

/-- The coordinate with each component moved to the nearest 32-bit number. -/
def nearest (x z : Int) : Coord :=
  ⟨saturate x, saturate z, fits_saturate x, fits_saturate z⟩

/-- Coordinates with the same components are equal. -/
theorem ext {c d : Coord} (hx : c.x = d.x) (hz : c.z = d.z) :
  c = d
  := by
  cases c
  cases d
  simp_all

/-- `ofInts?` gives the coordinate with the given components. -/
theorem ofInts?_eq_some {x z : Int} {c : Coord} :
  ofInts? x z = some c ↔ c.x = x ∧ c.z = z
  := by
  unfold ofInts?
  constructor
  · intro h
    split at h
    · cases h
      exact ⟨rfl, rfl⟩
    · cases h
  · rintro ⟨rfl, rfl⟩
    rw [dif_pos ⟨c.fits_x, c.fits_z⟩]

/-- `ofInts?` gives nothing exactly when a component is not a 32-bit number. -/
theorem ofInts?_eq_none {x z : Int} :
  ofInts? x z = none ↔ ¬ (Fits x ∧ Fits z)
  := by
  unfold ofInts?
  split <;> simp_all

/-- The Chebyshev distance in blocks, the larger of the distances along the two axes. -/
def distance (c d : Coord) : Nat :=
  max (c.x - d.x).natAbs (c.z - d.z).natAbs

/-- Coordinates in order of `x`, those with one `x` in order of `z`. -/
def order (c d : Coord) : Ordering :=
  (compare c.x d.x).then (compare c.z d.z)

instance : Std.TransCmp order :=
  inferInstanceAs (Std.TransCmp (compareLex (compareOn Coord.x) (compareOn Coord.z)))

instance : Std.LawfulEqCmp order where
  eq_of_compare h := by
    obtain ⟨hx, hz⟩ := Ordering.then_eq_eq.1 h
    exact Coord.ext (Std.LawfulEqCmp.eq_of_compare hx) (Std.LawfulEqCmp.eq_of_compare hz)

/-- The form in which messages show a coordinate. -/
def text (c : Coord) : String :=
  s!"({c.x}, {c.z})"

instance : ToString Coord := ⟨text⟩

end Coord

end IslandPlots
