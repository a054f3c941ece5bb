import IslandPlots.Proofs.Spiral.Order

/-!
# One step of the spiral

A step can begin at any coordinate, off the lattice and at the limits of the 32-bit range too.  It
is computed with numbers of limited size, and none of them overflows (`Coord.nextWithin?_eq`): the
cell that a coordinate floors to has 32-bit indices, the step takes one number beyond the ring, and
the coordinate of the next cell fits in 64 bits, wherever it is.  The next cell is the one with the
next index (`Cell.eq_next_iff`).  So two cells never have the same successor, and however often one
goes on, the index grows, so no coordinate comes again (`Coord.after?_ne`).
-/

namespace IslandPlots

/-- `n`, if it is a signed number of `bits` bits. -/
def signed? (bits : Nat) (n : Int) : Option Int :=
  if -2 ^ (bits - 1) ≤ n ∧ n < 2 ^ (bits - 1) then some n else none

/-- A number below a power of two is a signed number with one bit more. -/
theorem signed?_eq_some {bits : Nat} {n : Int} (h : n.natAbs < 2 ^ (bits - 1)) :
  signed? bits n = some n
  := by
  have hpow : (2 : Int) ^ (bits - 1) = ((2 ^ (bits - 1) : Nat) : Int) := by
    rw [Nat.cast_pow, Nat.cast_ofNat]
  apply if_pos
  rw [hpow]
  omega

namespace Cell

/-- The cell after `k`, as it is computed with signed numbers of `bits` bits; nothing when one of
the numbers overflows. -/
def nextWithin? (bits : Nat) (k : Cell) : Option Cell := do
  let a ← signed? bits k.a.natAbs
  let b ← signed? bits k.b.natAbs
  let r := max a b
  let m ← signed? bits (-r)
  if r = 0 then return ⟨1, 0⟩
  else if k.a = r ∧ k.b = m then return ⟨← signed? bits (r + 1), m⟩
  else if k.a = r ∧ k.b < r then return ⟨k.a, ← signed? bits (k.b + 1)⟩
  else if k.b = r ∧ m < k.a then return ⟨← signed? bits (k.a - 1), k.b⟩
  else if k.a = m ∧ m < k.b then return ⟨k.a, ← signed? bits (k.b - 1)⟩
  else return ⟨← signed? bits (k.a + 1), k.b⟩

/-- A step takes one number beyond the ring. -/
theorem nextWithin?_eq {bits : Nat} {k : Cell} (h : k.ring + 1 < 2 ^ (bits - 1)) :
  k.nextWithin? bits = some k.next
  := by
  have hsmall : ∀ n : Int, n.natAbs ≤ k.ring + 1 → signed? bits n = some n := by
    intro n hn
    apply signed?_eq_some
    omega
  have hring : max (k.a.natAbs : Int) k.b.natAbs = k.ring := by
    rw [ring]
    omega
  have ha : k.a.natAbs ≤ k.ring := Nat.le_max_left _ _
  have hb : k.b.natAbs ≤ k.ring := Nat.le_max_right _ _
  unfold nextWithin? next
  rw [hsmall k.a.natAbs (by omega), hsmall k.b.natAbs (by omega)]
  simp only [Option.bind_eq_bind, Option.bind_some, hring]
  rw [hsmall (-k.ring) (by omega), hsmall (k.ring + 1) (by omega), hsmall (k.b + 1) (by omega),
    hsmall (k.a - 1) (by omega), hsmall (k.b - 1) (by omega), hsmall (k.a + 1) (by omega)]
  simp only [Option.bind_some]
  split_ifs <;> rfl

/-- With 32 bits the step from the lower limit of the range would overflow. -/
example : nextWithin? 32 ⟨-2147483648, 0⟩ = none := by
  decide

/-- The next cell is the one with the next index. -/
theorem eq_next_iff {k l : Cell} :
  l = k.next ↔ l.index = k.index + 1
  := by
  rw [← index_next]
  exact index_injective.eq_iff.symm

/-- No two cells have the same successor. -/
theorem next_injective :
  Function.Injective next
  := by
  intro k l h
  apply index_injective
  have hindex := congrArg index h
  simpa using hindex

/-- A step leaves the ring at its closing corner, and only there. -/
theorem ring_next (k : Cell) :
  k.next.ring = if k = ringEnd k.ring then k.ring + 1 else k.ring
  := by
  split_ifs with hend
  · rw [hend, next_ringEnd, ring_ringEnd]
    simp only [ring]
    omega
  · rcases ring_offset_next k with ⟨hring, -⟩ | ⟨hend', -⟩
    · exact hring
    · exact absurd hend' hend

end Cell

namespace Coord

variable {s : Spacing}

/-- A coordinate lies in the square of its cell. -/
theorem cell_bounds (s : Spacing) (c : Coord) :
  ((c.cell s).a * s.val ≤ c.x ∧ c.x < ((c.cell s).a + 1) * s.val)
    ∧ ((c.cell s).b * s.val ≤ c.z ∧ c.z < ((c.cell s).b + 1) * s.val)
  := by
  have hpos := s.pos
  have hfloor : ∀ n : Int, n / s.val * s.val ≤ n ∧ n < (n / s.val + 1) * s.val :=
    fun n => ⟨Int.ediv_mul_le n (by omega), Int.lt_ediv_add_one_mul_self n (by omega)⟩
  exact ⟨hfloor c.x, hfloor c.z⟩

/-- The coordinate after `c`, as it is computed: the indices of its cell are signed 32-bit numbers,
and the numbers from there to the components of the next coordinate are signed 64-bit numbers.
Nothing when one of the numbers overflows. -/
def nextWithin? (s : Spacing) (c : Coord) : Option (Option Coord) := do
  let a ← signed? 32 (c.x / s.val)
  let b ← signed? 32 (c.z / s.val)
  let k ← Cell.nextWithin? 64 ⟨a, b⟩
  let x ← signed? 64 (k.a * s.val)
  let z ← signed? 64 (k.b * s.val)
  return ofInts? x z

/-- The indices of the cell of a representable coordinate are signed 32-bit numbers. -/
theorem signed?_ediv (s : Spacing) {n : Int} (h : Fits n) :
  signed? 32 (n / s.val) = some (n / s.val)
  := by
  obtain ⟨hl, hu⟩ := s.ediv_bounds h
  apply if_pos
  omega

/-- The components of the coordinate of a cell next to a representable one are signed 64-bit
numbers. -/
theorem signed?_mul (s : Spacing) {n : Int} (h : n.natAbs ≤ 2147483649) :
  signed? 64 (n * s.val) = some (n * s.val)
  := by
  have hspacing : s.val.natAbs ≤ 2147483647 := by
    have hpos := s.pos
    have hfits := s.fits
    omega
  have hproduct := Nat.mul_le_mul h hspacing
  apply signed?_eq_some
  rw [Int.natAbs_mul]
  omega

/-- No step overflows. -/
theorem nextWithin?_eq (s : Spacing) (c : Coord) :
  nextWithin? s c = some (c.next? s)
  := by
  have hring : (c.cell s).ring ≤ 2147483648 := ring_le s c
  have hnext : (c.cell s).next.ring ≤ 2147483649 := by
    rw [Cell.ring_next]
    split_ifs <;> omega
  have ha : (c.cell s).next.a.natAbs ≤ (c.cell s).next.ring := Nat.le_max_left _ _
  have hb : (c.cell s).next.b.natAbs ≤ (c.cell s).next.ring := Nat.le_max_right _ _
  have hstep : Cell.nextWithin? 64 ⟨c.x / s.val, c.z / s.val⟩ = some (c.cell s).next := by
    apply Cell.nextWithin?_eq
    change (c.cell s).ring + 1 < _
    omega
  rw [nextWithin?, signed?_ediv s c.fits_x, signed?_ediv s c.fits_z, Option.bind_eq_bind,
    Option.bind_some, Option.bind_eq_bind, Option.bind_some, hstep, Option.bind_some,
    signed?_mul s (ha.trans hnext), Option.bind_some, signed?_mul s (hb.trans hnext),
    Option.bind_some]
  rfl

/-- The coordinate that `n` steps lead to from `c`, if all coordinates on the way are
representable. -/
def after? (s : Spacing) (c : Coord) : Nat → Option Coord
  | 0 => some c
  | n + 1 => (after? s c n).bind (next? s)

/-- Every step adds one to the index. -/
theorem index_of_after? {c d : Coord} {n : Nat} (h : after? s c n = some d) :
  (d.cell s).index = (c.cell s).index + n
  := by
  induction n generalizing d with
  | zero =>
    cases h
    rfl
  | succ n ih =>
    obtain ⟨b, hb, hnext⟩ := Option.bind_eq_some_iff.1 h
    simp [cell_of_next? hnext, ih hb, Nat.add_assoc]

/-- No coordinate is reached again. -/
theorem after?_ne (s : Spacing) (c : Coord) (n : Nat) :
  after? s c (n + 1) ≠ some c
  := by
  intro h
  have hindex := index_of_after? h
  omega

/-- The ring of the next coordinate. -/
theorem ring_of_next? {c d : Coord} (h : c.next? s = some d) :
  d.ring s = if c.cell s = ⟨c.ring s, -c.ring s⟩ then c.ring s + 1 else c.ring s
  := by
  rw [ring, cell_of_next? h, Cell.ring_next]
  rfl

/-- One step from any coordinate is exact.  None of the numbers that it is computed with overflows.
It leads from the cell that the coordinate floors to to the one with the next index, which is one
lattice step away along one axis, and it fails exactly when a component of that cell's coordinate is
not a signed 32-bit number.  What it leads to is a point of the lattice, on the next ring when the
cell is the closing corner of its ring and on the same ring otherwise.  Coordinates in different
cells never have the same successor, and no coordinate is reached again from itself by one or more
steps. -/
theorem next?_exact (s : Spacing) :
  (∀ c, nextWithin? s c = some (c.next? s))
    ∧ (∀ c : Coord, let k := c.cell s; let l := k.next;
      (k.a * s.val ≤ c.x ∧ c.x < (k.a + 1) * s.val)
      ∧ (k.b * s.val ≤ c.z ∧ c.z < (k.b + 1) * s.val)
      ∧ (∀ m : Cell, m = l ↔ m.index = k.index + 1)
      ∧ (((l.a - k.a).natAbs = 1 ∧ l.b = k.b) ∨ (l.a = k.a ∧ (l.b - k.b).natAbs = 1))
      ∧ (∀ d, c.next? s = some d ↔ d.x = l.a * s.val ∧ d.z = l.b * s.val)
      ∧ (c.next? s = none ↔ ¬ (Fits (l.a * s.val) ∧ Fits (l.b * s.val))))
    ∧ (∀ c d : Coord, c.next? s = some d → s.val ∣ d.x ∧ s.val ∣ d.z
      ∧ (d.ring s = c.ring s ∨ d.ring s = c.ring s + 1)
      ∧ (d.ring s = c.ring s + 1 ↔ c.cell s = ⟨c.ring s, -c.ring s⟩))
    ∧ (∀ b c : Coord, b.cell s ≠ c.cell s → (b.cell s).next ≠ (c.cell s).next
      ∧ ∀ d, b.next? s = some d → c.next? s ≠ some d)
    ∧ ∀ c n, after? s c (n + 1) ≠ some c
  := by
  refine ⟨nextWithin?_eq s, ?_, ?_, ?_, after?_ne s⟩
  · intro c
    obtain ⟨hx, hz⟩ := cell_bounds s c
    exact ⟨hx, hz, fun m => Cell.eq_next_iff, (c.cell s).next_adjacent, fun d => ofInts?_eq_some,
      ofInts?_eq_none⟩
  · intro c d hnext
    obtain ⟨hx, hz⟩ := Cell.dvd_of_coord? hnext
    have hring := ring_of_next? hnext
    refine ⟨hx, hz, ?_⟩
    split_ifs at hring with hend
    · exact ⟨.inr hring, iff_of_true hring hend⟩
    · refine ⟨.inl hring, iff_of_false ?_ hend⟩
      omega
  · intro b c hne
    have hnext : (b.cell s).next ≠ (c.cell s).next := Cell.next_injective.ne hne
    refine ⟨hnext, ?_⟩
    intro d hb hc
    apply hnext
    rw [← cell_of_next? hb, ← cell_of_next? hc]

end Coord

end IslandPlots
