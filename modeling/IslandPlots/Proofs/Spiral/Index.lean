import IslandPlots.Spiral
import Mathlib.Logic.Function.Iterate
import Mathlib.Tactic.Ring
import Mathlib.Tactic.SplitIfs

/-!
# The index of a cell

The spiral numbers the cells of the lattice.  The index of a cell says how many steps it is
from the origin; ring `r ≥ 1` has the `8 * r` indices from `(2 * r - 1) ^ 2` on
(`Cell.ring_eq_iff`).  A step adds one to the index (`Cell.index_next`), and no two cells have
the same (`Cell.index_injective`), so the walk from the origin finds every cell, each at its
index and nowhere else (`Cell.nth_index`, `Cell.index_nth`).
-/

namespace IslandPlots

namespace Cell

/-- The number of steps along the spiral from the origin to a cell. -/
def index (k : Cell) : Nat :=
  (2 * k.ring - 1) ^ 2 + k.offset

/-- The cell with a given offset on ring `r ≥ 1`. -/
def atOffset (r i : Nat) : Cell :=
  if i < 2 * r then ⟨r, i - r + 1⟩
  else if i < 4 * r then ⟨3 * r - 1 - i, r⟩
  else if i < 6 * r then ⟨-r, 5 * r - 1 - i⟩
  else ⟨i + 1 - 7 * r, -r⟩

/-! ### Offsets -/

/-- Ring `0` is the origin. -/
theorem ring_eq_zero {k : Cell} :
  k.ring = 0 ↔ k = origin
  := by
  constructor
  · intro h
    obtain ⟨a, b⟩ := k
    simp only [ring] at h
    simp only [origin, mk.injEq]
    omega
  · rintro rfl
    rfl

/-- A cell is found at its offset on its ring, and a ring has `8 * r` offsets. -/
theorem offset_lt_and_atOffset {k : Cell} (h : k.ring ≠ 0) :
  k.offset < 8 * k.ring ∧ atOffset k.ring k.offset = k
  := by
  generalize hr : k.ring = r at h ⊢
  rcases edge_cases k (hr ▸ h) with
    ⟨b, hk, hl, hu⟩ | ⟨a, hk, hl, hu⟩ | ⟨b, hk, hl, hu⟩ | ⟨a, hk, hl, hu⟩ <;>
    rw [hr] at hk hl hu <;> subst hk
  · rw [(east_edge hl hu).2, atOffset, if_pos (by omega), mk.injEq]
    omega
  · rw [(south_edge hl hu).2, atOffset, if_neg (by omega), if_pos (by omega), mk.injEq]
    omega
  · rw [(west_edge hl hu).2, atOffset, if_neg (by omega), if_neg (by omega), if_pos (by omega),
      mk.injEq]
    omega
  · rw [(north_edge hl hu).2, atOffset, if_neg (by omega), if_neg (by omega), if_neg (by omega),
      mk.injEq]
    omega

/-! ### Indices -/

/-- Ring `r` takes up `8 * r` indices. -/
theorem sq_add_eight_mul {r : Nat} (h : r ≠ 0) :
  (2 * r - 1) ^ 2 + 8 * r = (2 * r + 1) ^ 2
  := by
  obtain ⟨m, rfl⟩ := Nat.exists_eq_succ_of_ne_zero h
  have : 2 * m.succ - 1 = 2 * m + 1 := by
    omega
  rw [this, Nat.succ_eq_add_one]
  ring

/-- The index of a cell lies between those that begin its ring and the next one. -/
theorem index_bounds (k : Cell) :
  (2 * k.ring - 1) ^ 2 ≤ k.index ∧ k.index < (2 * k.ring + 1) ^ 2
  := by
  refine ⟨Nat.le_add_right _ _, ?_⟩
  by_cases h : k.ring = 0
  · rw [ring_eq_zero.1 h]
    decide
  · have := (offset_lt_and_atOffset h).1
    rw [index, ← sq_add_eight_mul h]
    omega

/-- Cells with greater indices lie on the same ring or farther out. -/
theorem ring_mono {k l : Cell} (h : k.index ≤ l.index) :
  k.ring ≤ l.ring
  := by
  by_contra hlt
  have hroot : 2 * l.ring + 1 ≤ 2 * k.ring - 1 := by
    omega
  have hsquare := Nat.pow_le_pow_left hroot 2
  have hk := (index_bounds k).1
  have hl := (index_bounds l).2
  omega

/-- The cells of ring `r` are those with the `8 * r` indices from `(2 * r - 1) ^ 2` on. -/
theorem ring_eq_iff {r : Nat} (h : r ≠ 0) (k : Cell) :
  k.ring = r ↔ (2 * r - 1) ^ 2 ≤ k.index ∧ k.index < (2 * r - 1) ^ 2 + 8 * r
  := by
  rw [sq_add_eight_mul h]
  constructor
  · rintro rfl
    exact index_bounds k
  · rintro ⟨hl, hu⟩
    obtain ⟨hkl, hku⟩ := index_bounds k
    rcases Nat.lt_trichotomy k.ring r with hlt | heq | hgt
    · have hroot : 2 * k.ring + 1 ≤ 2 * r - 1 := by
        omega
      have hsquare := Nat.pow_le_pow_left hroot 2
      omega
    · exact heq
    · have hroot : 2 * r + 1 ≤ 2 * k.ring - 1 := by
        omega
      have hsquare := Nat.pow_le_pow_left hroot 2
      omega

/-- The last cell of a ring lies on it. -/
@[simp]
theorem ring_ringEnd (r : Nat) :
  (ringEnd r).ring = r
  := by
  simp only [ringEnd, ring]
  omega

/-- From the last cell of a ring the spiral goes one cell outwards. -/
@[simp]
theorem next_ringEnd (r : Nat) :
  (ringEnd r).next = ⟨r + 1, -r⟩
  := by
  rw [next, ring_ringEnd]
  rcases Nat.eq_zero_or_pos r with rfl | hpos
  · rfl
  · have hclosing : (ringEnd r).a = r ∧ (ringEnd r).b = -r := ⟨rfl, rfl⟩
    rw [if_neg (by omega), if_pos hclosing]

/-- The index of the last cell of a ring. -/
@[simp]
theorem index_ringEnd (r : Nat) :
  (ringEnd r).index = (2 * r + 1) ^ 2 - 1
  := by
  rcases Nat.eq_zero_or_pos r with rfl | hpos
  · rfl
  · obtain ⟨hring, hoffset⟩ := north_edge (r := r) (a := r) (by omega) (by omega)
    rw [index, ringEnd, hring, hoffset, ← sq_add_eight_mul (by omega)]
    omega

/-- A step adds one to the index. -/
@[simp]
theorem index_next (k : Cell) :
  k.next.index = k.index + 1
  := by
  rcases ring_offset_next k with ⟨hring, hoffset, -⟩ | ⟨hend, hring, hoffset⟩
  · rw [index, index, hring, hoffset, Nat.add_assoc]
  · have hlast := index_ringEnd k.ring
    have hpos : 0 < (2 * k.ring + 1) ^ 2 := Nat.pow_pos (by omega)
    rw [← hend] at hlast
    rw [index, hring, hoffset, hlast, Nat.add_zero, Nat.sub_add_cancel hpos]
    rfl

/-- No two cells have the same index. -/
theorem index_injective :
  Function.Injective index
  := by
  intro k l h
  have hring : k.ring = l.ring := Nat.le_antisymm (ring_mono h.le) (ring_mono h.ge)
  have hoffset : k.offset = l.offset := by
    rw [index, index, hring] at h
    omega
  by_cases hzero : l.ring = 0
  · rw [ring_eq_zero.1 hzero, ring_eq_zero.1 (hring.trans hzero)]
  · rw [← (offset_lt_and_atOffset hzero).2, ← hring, ← hoffset,
      (offset_lt_and_atOffset (hring ▸ hzero)).2]

/-! ### The walk from the origin -/

/-- The cell that the walk from the origin reaches with `n` steps. -/
def nth (n : Nat) : Cell :=
  next^[n] origin

/-- The walk goes on with steps. -/
theorem nth_succ (n : Nat) :
  nth (n + 1) = (nth n).next
  := Function.iterate_succ_apply' next n origin

/-- The walk is at index `n` after `n` steps. -/
@[simp]
theorem index_nth (n : Nat) :
  (nth n).index = n
  := by
  induction n with
  | zero => rfl
  | succ n ih => rw [nth_succ, index_next, ih]

/-- The walk reaches each cell, with as many steps as its index says. -/
@[simp]
theorem nth_index (k : Cell) :
  nth k.index = k
  := index_injective (index_nth k.index)

/-- The walk is on ring `r` or nearer to the origin while its index is that of a cell up to
ring `r`. -/
@[simp]
theorem ring_nth_le_iff (r n : Nat) :
  (nth n).ring ≤ r ↔ n < (2 * r + 1) ^ 2
  := by
  constructor
  · intro h
    have hsquare : (2 * (nth n).ring + 1) ^ 2 ≤ (2 * r + 1) ^ 2 :=
      Nat.pow_le_pow_left (by omega) 2
    have hbound := (index_bounds (nth n)).2
    rw [index_nth] at hbound
    omega
  · intro h
    rw [← ring_ringEnd r]
    apply ring_mono
    rw [index_nth, index_ringEnd]
    omega

/-- A step leads to a neighbour along one of the axes. -/
theorem next_adjacent (k : Cell) :
  ((k.next.a - k.a).natAbs = 1 ∧ k.next.b = k.b) ∨ (k.next.a = k.a ∧ (k.next.b - k.b).natAbs = 1)
  := by
  have hring : k.ring = max k.a.natAbs k.b.natAbs := rfl
  unfold next
  generalize k.ring = r at hring ⊢
  dsimp only
  split_ifs <;> dsimp only <;> omega

end Cell

end IslandPlots
