import IslandPlots.Proofs.Spiral.Outside

/-!
# The cells of a ring

A ring can be listed edge by edge, or it can be walked.  Both come to the same: the list of ring
`r ≥ 1` has at place `k` the cell with offset `k` (`Cell.ofRing_eq`), and the walk is there after
`(2 * r - 1) ^ 2 + k` steps from the origin (`Cell.atOffset_eq_nth`).  On a representable ring no
coordinate is moved, and the list is what the walk visits between the last coordinate of the ring
before and that of the ring itself (`Coord.ofRing_eq_walk`).
-/

namespace IslandPlots

namespace Cell

/-! ### The edges by their offsets -/

/-- The first quarter of the offsets of a ring is on the east edge. -/
theorem atOffset_east {r i : Nat} (h : i < 2 * r) :
  atOffset r i = ⟨r, i - r + 1⟩
  := if_pos h

/-- The second quarter of the offsets of a ring is on the south edge. -/
theorem atOffset_south {r i : Nat} (h : i < 2 * r) :
  atOffset r (2 * r + i) = ⟨r - 1 - i, r⟩
  := by
  rw [atOffset, if_neg (by omega), if_pos (by omega), mk.injEq]
  omega

/-- The third quarter of the offsets of a ring is on the west edge. -/
theorem atOffset_west {r i : Nat} (h : i < 2 * r) :
  atOffset r (2 * r + 2 * r + i) = ⟨-r, r - 1 - i⟩
  := by
  rw [atOffset, if_neg (by omega), if_neg (by omega), if_pos (by omega), mk.injEq]
  omega

/-- The last quarter of the offsets of a ring is on the north edge. -/
theorem atOffset_north {r i : Nat} (h : i < 2 * r) :
  atOffset r (2 * r + 2 * r + 2 * r + i) = ⟨i - r + 1, -r⟩
  := by
  rw [atOffset, if_neg (by omega), if_neg (by omega), if_neg (by omega), mk.injEq]
  omega

/-- The list of a ring has the cells in order of their offsets. -/
theorem ofRing_eq {r : Nat} (h : r ≠ 0) :
  ofRing r = (List.range (8 * r)).map (atOffset r)
  := by
  obtain ⟨m, rfl⟩ := Nat.exists_eq_succ_of_ne_zero h
  have hedges : 8 * m.succ = 2 * m.succ + 2 * m.succ + 2 * m.succ + 2 * m.succ := by
    omega
  rw [hedges, List.range_add, List.range_add, List.range_add, List.map_append, List.map_append,
    List.map_append, ofRing]
  simp only [List.map_map]
  congr 1
  · congr 1
    · congr 1
      · apply List.map_congr_left
        intro i hi
        exact (atOffset_east (List.mem_range.1 hi)).symm
      · apply List.map_congr_left
        intro i hi
        exact (atOffset_south (List.mem_range.1 hi)).symm
    · apply List.map_congr_left
      intro i hi
      exact (atOffset_west (List.mem_range.1 hi)).symm
  · apply List.map_congr_left
    intro i hi
    exact (atOffset_north (List.mem_range.1 hi)).symm

/-! ### The cells of a ring on the walk -/

/-- The walk is at offset `k` of ring `r` after as many steps as there are cells before. -/
theorem atOffset_eq_nth {r k : Nat} (h : r ≠ 0) (hk : k < 8 * r) :
  atOffset r k = nth ((2 * r - 1) ^ 2 + k)
  := by
  generalize hcell : nth ((2 * r - 1) ^ 2 + k) = l
  have hindex : l.index = (2 * r - 1) ^ 2 + k := by
    rw [← hcell, index_nth]
  have hring : l.ring = r := by
    rw [ring_eq_iff h, hindex]
    omega
  have hoffset : l.offset = k := by
    rw [index, hring] at hindex
    omega
  have hfound := (offset_lt_and_atOffset (hring ▸ h)).2
  rw [hring, hoffset] at hfound
  exact hfound

end Cell

namespace Coord

variable {s : Spacing}

/-! ### Walks -/

/-- A walk has as many coordinates as it has steps. -/
theorem length_walk (c : Coord) (n : Nat) :
  (walk s c n).length = n
  := by
  induction n generalizing c with
  | zero => rfl
  | succ n ih => rw [walk, List.length_cons, ih]

/-- It makes no difference whether one more step is taken first or last. -/
theorem advance_next (c : Coord) (n : Nat) :
  advance s (c.next s) n = advance s c (n + 1)
  := by
  induction n with
  | zero => rfl
  | succ n ih => exact congrArg (next s) ih

/-- A walk is at place `k` after `k + 1` steps. -/
theorem getElem?_walk {c : Coord} {n k : Nat} (h : k < n) :
  (walk s c n)[k]? = some (advance s c (k + 1))
  := by
  induction n generalizing c k with
  | zero => cases h
  | succ n ih =>
    rw [walk]
    cases k with
    | zero => rfl
    | succ k => rw [List.getElem?_cons_succ, ih (by omega), advance_next]

/-- Within the representable range the walk from the spawn goes on with steps from wherever it
is. -/
theorem nth?_add
    {m n : Nat} {c : Coord} (hc : nth? s m = some c) (h : m + n ≤ s.lastIndex) :
  nth? s (m + n) = some (advance s c n)
  := by
  induction n with
  | zero => exact hc
  | succ n ih =>
    obtain ⟨d, hd⟩ : ∃ d, nth? s (m + (n + 1)) = some d := by
      rw [← Option.ne_none_iff_exists', Ne, nth?_eq_none]
      omega
    have hnext : next? s (advance s c n) = some d := by
      rw [← Nat.add_assoc, nth?, ih (by omega)] at hd
      exact hd
    have hstep : advance s c (n + 1) = d := by
      apply (congrArg (Option.getD · (advance s c n)) hnext).trans
      rfl
    rw [hd, hstep]

/-! ### Rings -/

/-- The rings that end within the representable range are those up to the last one. -/
theorem le_lastRing_of_mul_le {r : Nat} (h : r * s.val ≤ 2147483647) :
  r ≤ s.lastRing
  := by
  have hlast := s.cast_lastRing
  have hle : (r : Int) ≤ 2147483647 / s.val := Int.le_ediv_of_mul_le s.pos h
  omega

/-- The list of a representable ring has what the walk from the spawn visits. -/
theorem getElem?_ofRing {r k : Nat} (hpos : r ≠ 0) (hr : r ≤ s.lastRing) (hk : k < 8 * r) :
  (ofRing s r)[k]? = nth? s ((2 * r - 1) ^ 2 + k)
  := by
  have hcell := Cell.atOffset_eq_nth hpos hk
  have hring : (Cell.nth ((2 * r - 1) ^ 2 + k)).ring ≤ s.lastRing := by
    apply Nat.le_trans _ hr
    rw [Cell.ring_nth_le_iff, ← Cell.sq_add_eight_mul hpos]
    omega
  rw [ofRing, Cell.ofRing_eq hpos, List.map_map, List.getElem?_map, List.getElem?_range hk,
    Option.map_some, Function.comp_apply, hcell, ← coord?_eq_nearest hring, nth?_eq,
    if_pos ((Cell.ring_le_lastRing_iff s _).1 hring)]

/-- The list of ring `r ≥ 1` has `8 * r` coordinates. -/
theorem length_ofRing {r : Nat} (h : r ≠ 0) :
  (ofRing s r).length = 8 * r
  := by
  rw [ofRing, Cell.ofRing_eq h, List.length_map, List.length_map, List.length_range]

/-- The list of a ring agrees with the walk.  On every ring `r ≥ 1` that is representable, the list
of its coordinates is exactly the walk of `8 * r` steps from the last coordinate of the ring before;
it ends with the last coordinate of the ring; and its coordinate at place `k` is the one that the
walk from the spawn reaches with `(2 * r - 1) ^ 2 + k` steps, none of which leaves the
representable range. -/
theorem ofRing_eq_walk {r : Nat} (hpos : 1 ≤ r) (hr : r * s.val ≤ 2147483647) :
  ofRing s r = walk s (ringEnd s (r - 1)) (8 * r)
    ∧ (ofRing s r).getLast? = some (ringEnd s r)
    ∧ ∀ k, k < 8 * r → (ofRing s r)[k]? = nth? s ((2 * r - 1) ^ 2 + k)
      ∧ (ofRing s r)[k]? = some (advance s origin ((2 * r - 1) ^ 2 + k))
  := by
  have hne : r ≠ 0 := by
    omega
  have hlast : r ≤ s.lastRing := le_lastRing_of_mul_le hr
  have hindex : (2 * r + 1) ^ 2 - 1 ≤ s.lastIndex := by
    rw [← Nat.not_lt, ← nth?_eq_none, nth?_ringEnd hlast]
    nofun
  have hsquare := Cell.sq_add_eight_mul hne
  refine ⟨?_, ?_, ?_⟩
  · apply List.ext_getElem?
    intro k
    rcases Nat.lt_or_ge k (8 * r) with hk | hk
    · have hbefore : nth? s ((2 * r - 1) ^ 2 - 1) = some (ringEnd s (r - 1)) := by
        have hroot : 2 * r - 1 = 2 * (r - 1) + 1 := by
          omega
        rw [hroot]
        apply nth?_ringEnd
        omega
      have hfirst : 0 < (2 * r - 1) ^ 2 := Nat.pow_pos (by omega)
      have hplace : (2 * r - 1) ^ 2 - 1 + (k + 1) = (2 * r - 1) ^ 2 + k := by
        omega
      rw [getElem?_ofRing hne hlast hk, getElem?_walk hk, ← nth?_add hbefore (by omega), hplace]
    · rw [List.getElem?_eq_none, List.getElem?_eq_none]
      · rwa [length_walk]
      · rwa [length_ofRing hne]
  · have hplace : (2 * r - 1) ^ 2 + (8 * r - 1) = (2 * r + 1) ^ 2 - 1 := by
      omega
    rw [List.getLast?_eq_getElem?, length_ofRing hne, getElem?_ofRing hne hlast (by omega), hplace,
      nth?_ringEnd hlast]
  · intro k hk
    have hfound := getElem?_ofRing hne hlast hk
    refine ⟨hfound, ?_⟩
    have hwalk := nth?_add (s := s) (m := 0) (c := origin) (n := (2 * r - 1) ^ 2 + k) rfl (by omega)
    rw [Nat.zero_add] at hwalk
    rw [hfound, hwalk]

/-- The last two rings of a wide lattice: the second ends at the edge of the representable
range. -/
theorem ofRing_eq_walk_edge :
  let s : Spacing := ⟨1073741823, by decide, by decide⟩
  1 ≤ 2 ∧ 2 * s.val ≤ 2147483647
    ∧ ofRing s 2 = walk s (ringEnd s 1) 16
    ∧ (ofRing s 2)[0]? = some ⟨2147483646, -1073741823, by decide, by decide⟩
    ∧ (ofRing s 2)[0]? = nth? s 9
    ∧ (ofRing s 2).getLast? = some ⟨2147483646, -2147483646, by decide, by decide⟩
  := by
  intro s
  have hpos : 1 ≤ 2 := by
    decide
  have hr : ((2 : Nat) : Int) * s.val ≤ 2147483647 := by
    decide
  obtain ⟨hwalk, hend, hplaces⟩ := ofRing_eq_walk hpos hr
  refine ⟨hpos, hr, hwalk, by decide, (hplaces 0 (by decide)).1, hend.trans (by decide)⟩

end Coord

end IslandPlots
