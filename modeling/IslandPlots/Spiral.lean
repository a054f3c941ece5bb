import IslandPlots.Lattice

/-!
# The outward spiral

Ring `r` of the lattice consists of the cells at Chebyshev distance `r` from the origin.
The spiral walks the rings from the inside out.  On ring `r ≥ 1` it follows

* the east edge, from `(r, -r + 1)` to `(r, r)`,
* the south edge, from `(r - 1, r)` to `(-r, r)`,
* the west edge, from `(-r, r - 1)` to `(-r, -r)`,
* the north edge, from `(-r + 1, -r)` to the closing corner `(r, -r)`,

and steps from the closing corner to `(r + 1, -r)`, the first cell of the next ring.  The
origin is ring `0` and is followed by `(1, 0)`.

`Cell.next` is one step, `Cell.ring` and `Cell.offset` say where on the spiral a cell
lies, and `Cell.ofRing` lists a ring.  A step leads to the next offset of the same ring or
from the closing corner to the next ring (`Cell.ring_offset_next`), which is why a search
along the spiral ends: `Coord.seek` stops at a wanted coordinate or at the edge of the
representable range.
-/

namespace IslandPlots

namespace Cell

/-- The Chebyshev distance of a cell from the origin of the lattice. -/
def ring (k : Cell) : Nat :=
  max k.a.natAbs k.b.natAbs

/-- The number of steps from the first cell of the ring of `k` to `k`; zero at the
origin. -/
def offset (k : Cell) : Nat :=
  let r : Int := k.ring
  if k.ring = 0 then 0
  else if k.a = r ∧ -r < k.b then (k.b + r - 1).toNat
  else if k.b = r ∧ -r ≤ k.a then (3 * r - 1 - k.a).toNat
  else if k.a = -r then (5 * r - 1 - k.b).toNat
  else (7 * r - 1 + k.a).toNat

/-- The cell after `k` on the spiral. -/
def next (k : Cell) : Cell :=
  let r : Int := k.ring
  if r = 0 then ⟨1, 0⟩
  else if k.a = r ∧ k.b = -r then ⟨r + 1, -r⟩
  else if k.a = r ∧ k.b < r then ⟨k.a, k.b + 1⟩
  else if k.b = r ∧ -r < k.a then ⟨k.a - 1, k.b⟩
  else if k.a = -r ∧ -r < k.b then ⟨k.a, k.b - 1⟩
  else ⟨k.a + 1, k.b⟩

/-- The last cell the spiral visits on ring `r`. -/
def ringEnd (r : Nat) : Cell :=
  ⟨r, -r⟩

/-- The cells of ring `r` in the order of the spiral. -/
def ofRing : Nat → List Cell
  | 0 => [origin]
  | r + 1 =>
    let n : Int := r + 1
    let side := (List.range (2 * (r + 1))).map Int.ofNat
    side.map (fun i => ⟨n, i - n + 1⟩)
      ++ side.map (fun i => ⟨n - 1 - i, n⟩)
      ++ side.map (fun i => ⟨-n, n - 1 - i⟩)
      ++ side.map (fun i => ⟨i - n + 1, -n⟩)

/-! ### The four edges of a ring -/

/-- The ring and the offset of a cell on the east edge. -/
theorem east_edge {r : Nat} {b : Int} (hl : -(r : Int) < b) (hu : b ≤ r) :
  (⟨r, b⟩ : Cell).ring = r ∧ (⟨r, b⟩ : Cell).offset = (b + r - 1).toNat
  := by
  have hr : (⟨r, b⟩ : Cell).ring = r := by
    simp only [ring]
    omega
  refine ⟨hr, ?_⟩
  simp only [offset, hr]
  rw [if_neg (by omega), if_pos ⟨trivial, hl⟩]

/-- The ring and the offset of a cell on the south edge. -/
theorem south_edge {r : Nat} {a : Int} (hl : -(r : Int) ≤ a) (hu : a < r) :
  (⟨a, r⟩ : Cell).ring = r ∧ (⟨a, r⟩ : Cell).offset = (3 * r - 1 - a).toNat
  := by
  have hr : (⟨a, r⟩ : Cell).ring = r := by
    simp only [ring]
    omega
  refine ⟨hr, ?_⟩
  simp only [offset, hr]
  rw [if_neg (by omega), if_neg (by omega), if_pos ⟨trivial, hl⟩]

/-- The ring and the offset of a cell on the west edge. -/
theorem west_edge {r : Nat} {b : Int} (hl : -(r : Int) ≤ b) (hu : b < r) :
  (⟨-r, b⟩ : Cell).ring = r ∧ (⟨-r, b⟩ : Cell).offset = (5 * r - 1 - b).toNat
  := by
  have hr : (⟨-r, b⟩ : Cell).ring = r := by
    simp only [ring]
    omega
  refine ⟨hr, ?_⟩
  simp only [offset, hr]
  rw [if_neg (by omega), if_neg (by omega), if_neg (by omega), if_pos trivial]

/-- The ring and the offset of a cell on the north edge, the closing corner included. -/
theorem north_edge {r : Nat} {a : Int} (hl : -(r : Int) < a) (hu : a ≤ r) :
  (⟨a, -r⟩ : Cell).ring = r ∧ (⟨a, -r⟩ : Cell).offset = (7 * r - 1 + a).toNat
  := by
  have hr : (⟨a, -r⟩ : Cell).ring = r := by
    simp only [ring]
    omega
  refine ⟨hr, ?_⟩
  simp only [offset, hr]
  rw [if_neg (by omega), if_neg (by omega), if_neg (by omega), if_neg (by omega)]

/-- A cell other than the origin lies on one of the edges of its ring. -/
theorem edge_cases (k : Cell) (h : k.ring ≠ 0) :
  (∃ b : Int, k = ⟨k.ring, b⟩ ∧ -(k.ring : Int) < b ∧ b ≤ k.ring)
    ∨ (∃ a : Int, k = ⟨a, k.ring⟩ ∧ -(k.ring : Int) ≤ a ∧ a < k.ring)
    ∨ (∃ b : Int, k = ⟨-k.ring, b⟩ ∧ -(k.ring : Int) ≤ b ∧ b < k.ring)
    ∨ (∃ a : Int, k = ⟨a, -k.ring⟩ ∧ -(k.ring : Int) < a ∧ a ≤ k.ring)
  := by
  obtain ⟨a, b⟩ := k
  generalize hr : (⟨a, b⟩ : Cell).ring = r at h ⊢
  simp only [ring] at hr
  simp only [Cell.mk.injEq]
  by_cases h₁ : a = r ∧ -(r : Int) < b
  · exact .inl ⟨b, ⟨h₁.1, rfl⟩, h₁.2, by omega⟩
  by_cases h₂ : b = r
  · exact .inr (.inl ⟨a, ⟨rfl, h₂⟩, by omega, by omega⟩)
  by_cases h₃ : a = -r
  · exact .inr (.inr (.inl ⟨b, ⟨h₃, rfl⟩, by omega, by omega⟩))
  · exact .inr (.inr (.inr ⟨a, ⟨rfl, by omega⟩, by omega, by omega⟩))

/-- A step leads to the next offset of the same ring, or from the closing corner to the
next ring. -/
theorem ring_offset_next (k : Cell) :
  (k.next.ring = k.ring ∧ k.next.offset = k.offset + 1 ∧ k.offset + 1 < 8 * k.ring)
    ∨ (k = ringEnd k.ring ∧ k.next.ring = k.ring + 1 ∧ k.next.offset = 0)
  := by
  by_cases h : k.ring = 0
  · right
    have ha : k.a = 0 := by
      simp only [ring] at h
      omega
    have hb : k.b = 0 := by
      simp only [ring] at h
      omega
    obtain ⟨a, b⟩ := k
    simp only at ha hb
    subst ha hb
    exact ⟨rfl, rfl, rfl⟩
  generalize hr : k.ring = r at h ⊢
  rcases edge_cases k (hr ▸ h) with
    ⟨b, hk, hl, hu⟩ | ⟨a, hk, hl, hu⟩ | ⟨b, hk, hl, hu⟩ | ⟨a, hk, hl, hu⟩ <;>
    rw [hr] at hk hl hu <;> subst hk
  · left
    obtain ⟨-, ho⟩ := east_edge hl hu
    rcases Int.lt_or_eq_of_le hu with hu' | rfl
    · have hn : next ⟨r, b⟩ = ⟨r, b + 1⟩ := by
        simp only [next, hr]
        rw [if_neg (by omega), if_neg (by omega), if_pos ⟨trivial, hu'⟩]
      obtain ⟨hr', ho'⟩ := east_edge (r := r) (b := b + 1) (by omega) (by omega)
      rw [hn, hr', ho', ho]
      omega
    · have hn : next ⟨r, r⟩ = ⟨r - 1, r⟩ := by
        simp only [next, hr]
        rw [if_neg (by omega), if_neg (by omega), if_neg (by omega), if_pos ⟨trivial, hl⟩]
      obtain ⟨hr', ho'⟩ := south_edge (r := r) (a := r - 1) (by omega) (by omega)
      rw [hn, hr', ho', ho]
      omega
  · left
    obtain ⟨-, ho⟩ := south_edge hl hu
    rcases Int.lt_or_eq_of_le hl with hl' | rfl
    · have hn : next ⟨a, r⟩ = ⟨a - 1, r⟩ := by
        simp only [next, hr]
        rw [if_neg (by omega), if_neg (by omega), if_neg (by omega), if_pos ⟨trivial, hl'⟩]
      obtain ⟨hr', ho'⟩ := south_edge (r := r) (a := a - 1) (by omega) (by omega)
      rw [hn, hr', ho', ho]
      omega
    · have hn : next ⟨-r, r⟩ = ⟨-r, r - 1⟩ := by
        simp only [next, hr]
        rw [if_neg (by omega), if_neg (by omega), if_neg (by omega), if_neg (by omega),
          if_pos ⟨trivial, by omega⟩]
      obtain ⟨hr', ho'⟩ := west_edge (r := r) (b := r - 1) (by omega) (by omega)
      rw [hn, hr', ho', ho]
      omega
  · left
    obtain ⟨-, ho⟩ := west_edge hl hu
    rcases Int.lt_or_eq_of_le hl with hl' | rfl
    · have hn : next ⟨-r, b⟩ = ⟨-r, b - 1⟩ := by
        simp only [next, hr]
        rw [if_neg (by omega), if_neg (by omega), if_neg (by omega), if_neg (by omega),
          if_pos ⟨trivial, hl'⟩]
      obtain ⟨hr', ho'⟩ := west_edge (r := r) (b := b - 1) (by omega) (by omega)
      rw [hn, hr', ho', ho]
      omega
    · have hn : next ⟨-r, -r⟩ = ⟨-r + 1, -r⟩ := by
        simp only [next, hr]
        rw [if_neg (by omega), if_neg (by omega), if_neg (by omega), if_neg (by omega),
          if_neg (by omega)]
      obtain ⟨hr', ho'⟩ := north_edge (r := r) (a := -r + 1) (by omega) (by omega)
      rw [hn, hr', ho', ho]
      omega
  · obtain ⟨-, ho⟩ := north_edge hl hu
    rcases Int.lt_or_eq_of_le hu with hu' | rfl
    · left
      have hn : next ⟨a, -r⟩ = ⟨a + 1, -r⟩ := by
        simp only [next, hr]
        rw [if_neg (by omega), if_neg (by omega), if_neg (by omega), if_neg (by omega),
          if_neg (by omega)]
      obtain ⟨hr', ho'⟩ := north_edge (r := r) (a := a + 1) (by omega) (by omega)
      rw [hn, hr', ho', ho]
      omega
    · right
      have hn : next ⟨r, -r⟩ = ⟨(r + 1 : Nat), -r⟩ := by
        simp only [next, hr]
        rw [if_neg (by omega), if_pos ⟨trivial, trivial⟩]
        rfl
      obtain ⟨hr', ho'⟩ := east_edge (r := r + 1) (b := -r) (by omega) (by omega)
      rw [hn, hr', ho']
      exact ⟨rfl, rfl, by omega⟩

end Cell

namespace Coord

/-- The ring of the cell a coordinate floors to. -/
def ring (s : Spacing) (c : Coord) : Nat :=
  (c.cell s).ring

/-- The coordinate after `c` on the spiral, if it is representable.  A coordinate off the
lattice is floored onto it first. -/
def next? (s : Spacing) (c : Coord) : Option Coord :=
  (c.cell s).next.coord? s

/-- The coordinate after `c` on the spiral, or `c` itself at the edge of the representable
range. -/
def next (s : Spacing) (c : Coord) : Coord :=
  (c.next? s).getD c

/-- The last coordinate of ring `r`, moved into the representable range. -/
def ringEnd (s : Spacing) (r : Nat) : Coord :=
  (Cell.ringEnd (min r 2147483647)).nearest s

/-- The coordinates of ring `r` in the order of the spiral, each moved into the
representable range. -/
def ofRing (s : Spacing) (r : Nat) : List Coord :=
  (Cell.ofRing r).map (Cell.nearest s)

/-- The `n` coordinates that follow `c` on the spiral. -/
def walk (s : Spacing) (c : Coord) : Nat → List Coord
  | 0 => []
  | n + 1 => c.next s :: walk s (c.next s) n

/-- The coordinate `n` steps after `c` on the spiral. -/
def advance (s : Spacing) (c : Coord) (n : Nat) : Coord :=
  n.repeat (next s) c

/-- The next coordinate floors to the next cell. -/
theorem cell_of_next? {s : Spacing} {c d : Coord} (h : c.next? s = some d) :
  d.cell s = (c.cell s).next
  := Cell.cell_of_coord? h

/-- Every coordinate lies on ring `2147483648` or nearer to the origin. -/
theorem ring_le (s : Spacing) (c : Coord) :
  c.ring s ≤ 2147483648
  := by
  have hx := s.ediv_bounds c.fits_x
  have hz := s.ediv_bounds c.fits_z
  unfold Fits at hx hz
  unfold ring Cell.ring cell
  simp only
  omega

/-- The first coordinate after `c` on the spiral that is wanted.  When the walk reaches
the edge of the representable range first, the result is the last coordinate before the
edge. -/
def seek (s : Spacing) (wanted : Coord → Bool) (c : Coord) : Except Coord Coord :=
  match _h : c.next? s with
  | none => .error c
  | some d => if wanted d then .ok d else seek s wanted d
-- One number, and not a pair in lexicographic order, so that a search can be evaluated.
termination_by 20000000000 * (2147483649 - c.ring s) + (8 * c.ring s - (c.cell s).offset)
decreasing_by
  have hd := cell_of_next? _h
  have hr := ring_le s d
  have hn := Cell.ring_offset_next (c.cell s)
  simp only [ring, hd] at hr ⊢
  rcases hn with ⟨h₁, h₂, h₃⟩ | ⟨-, h₁, -⟩
  · rw [h₁, h₂]
    omega
  · omega

end Coord

end IslandPlots
