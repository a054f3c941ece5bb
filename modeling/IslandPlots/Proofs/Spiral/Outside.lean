import IslandPlots.Proofs.Config
import IslandPlots.Proofs.Spiral.Walk
import Mathlib.Data.List.Nodup

/-!
# The spiral outside the exclusion

The exclusion covers whole rings, the innermost ones (`Coord.contains_of_coord?`).  So the
plots of the spiral, which are the coordinates of the walk outside the exclusion
(`Settings.plots`), are an end of the walk: all coordinates from index `Settings.firstIndex`
on (`Settings.getElem?_plots`).
-/

namespace IslandPlots

/-- An exclusion of representable radius ends within the representable rings. -/
theorem Exclusion.rings_le_lastRing
    {exclusion : Exclusion} (h : exclusion.radius ≤ 2147483647) (s : Spacing) :
  exclusion.rings s ≤ s.lastRing
  := by
  have hpos := s.pos
  have hcovered : exclusion.rings s * s.val.toNat ≤ exclusion.radius := Nat.div_mul_le_self _ _
  have hlast := s.lastRing_bounds.2
  obtain ⟨k, hk⟩ := Int.eq_ofNat_of_zero_le (show 0 ≤ s.val by omega)
  rw [hk, Int.toNat_natCast] at hcovered
  rw [hk] at hlast
  have hlast' : 2147483647 < (s.lastRing + 1) * k := by
    exact_mod_cast hlast
  have hlt : exclusion.rings s * k < (s.lastRing + 1) * k := by
    omega
  exact Nat.le_of_lt_add_one (Nat.lt_of_mul_lt_mul_right hlt)

namespace Coord

variable {s : Spacing}

/-- A point of the lattice stands where its cell does. -/
theorem coord?_cell_of_dvd
    {c : Coord} (hx : s.val ∣ c.x) (hz : s.val ∣ c.z) :
  (c.cell s).coord? s = some c
  := ofInts?_eq_some.2 ⟨(Int.ediv_mul_cancel hx).symm, (Int.ediv_mul_cancel hz).symm⟩

/-- A point of the lattice is as far from the spawn as its ring. -/
theorem distance_origin_of_coord?
    {k : Cell} {c : Coord} (h : k.coord? s = some c) :
  c.distance origin = k.ring * s.val.toNat
  := by
  obtain ⟨hx, hz⟩ := ofInts?_eq_some.1 h
  have hpos := s.pos
  have hval : s.val.toNat = s.val.natAbs := by
    omega
  unfold distance Cell.ring
  rw [hx, hz, hval, ← Nat.mul_max_mul_right, ← Int.natAbs_mul, ← Int.natAbs_mul]
  simp [origin]

/-- The exclusion covers the points of the lattice on the innermost rings. -/
theorem contains_of_coord?
    {k : Cell} {c : Coord} (h : k.coord? s = some c) (exclusion : Exclusion) :
  exclusion.contains c = true ↔ k.ring ≤ exclusion.rings s
  := by
  have hpos := s.pos
  rw [Exclusion.contains, decide_eq_true_iff, distance_origin_of_coord? h,
    ← Nat.le_div_iff_mul_le (by omega)]
  rfl

/-- The exclusion covers the coordinates of the walk on the innermost rings. -/
theorem contains_of_nth?
    {n : Nat} {c : Coord} (h : nth? s n = some c) (exclusion : Exclusion) :
  exclusion.contains c = true ↔ n < (2 * exclusion.rings s + 1) ^ 2
  := by
  simp [contains_of_coord? (nth?_eq_some.1 h).2]

/-- The walk meets no coordinate twice. -/
theorem nth?_injective
    {m n : Nat} {c : Coord} (hm : nth? s m = some c) (hn : nth? s n = some c) :
  m = n
  := by
  have hcell : Cell.nth m = Cell.nth n := by
    rw [← Cell.cell_of_coord? (nth?_eq_some.1 hm).2, Cell.cell_of_coord? (nth?_eq_some.1 hn).2]
  rw [← Cell.index_nth m, hcell, Cell.index_nth]

/-- The components of a coordinate of the walk are multiples of the spacing. -/
theorem dvd_of_nth?
    {n : Nat} {c : Coord} (h : nth? s n = some c) :
  s.val ∣ c.x ∧ s.val ∣ c.z
  := Cell.dvd_of_coord? (nth?_eq_some.1 h).2

/-- Two points of the lattice are at least one spacing apart. -/
theorem le_distance_of_dvd
    {c d : Coord} (hc : s.val ∣ c.x ∧ s.val ∣ c.z) (hd : s.val ∣ d.x ∧ s.val ∣ d.z)
    (hne : c ≠ d) :
  s.val ≤ c.distance d
  := by
  have hapart : ∀ m n : Int, s.val ∣ m → s.val ∣ n → m ≠ n → s.val ≤ (m - n).natAbs := by
    intro m n hm hn hmn
    apply Int.le_of_dvd (by omega)
    rw [Int.dvd_natAbs]
    exact Int.dvd_sub hm hn
  have hcases : c.x ≠ d.x ∨ c.z ≠ d.z := by
    by_contra hsame
    obtain ⟨hx, hz⟩ := not_or.1 hsame
    exact hne (Coord.ext (not_not.1 hx) (not_not.1 hz))
  unfold distance
  rcases hcases with hx | hz
  · have := hapart _ _ hc.1 hd.1 hx
    omega
  · have := hapart _ _ hc.2 hd.2 hz
    omega

/-- No component of a coordinate is moved on a representable ring. -/
theorem coord?_eq_nearest {k : Cell} (h : k.ring ≤ s.lastRing) :
  k.coord? s = some (k.nearest s)
  := by
  obtain ⟨c, hc⟩ := Cell.exists_coord? h
  obtain ⟨hx, hz⟩ := ofInts?_eq_some.1 hc
  rw [hc, Cell.nearest, ← hx, ← hz]
  exact congrArg some (ext (saturate_of_fits c.fits_x).symm (saturate_of_fits c.fits_z).symm)

/-- The last coordinate of a representable ring stands where the last cell does; none of its
components is moved into the representable range. -/
theorem coord?_ringEnd
    {r : Nat} (h : r ≤ s.lastRing) :
  (Cell.ringEnd r).coord? s = some (ringEnd s r)
  := by
  have hbound : s.lastRing ≤ 2147483647 := by
    unfold Spacing.lastRing
    have := s.ediv_bounds (n := 2147483647) (by decide)
    unfold Fits at this
    omega
  rw [ringEnd, Nat.min_eq_left (by omega)]
  apply coord?_eq_nearest
  rwa [Cell.ring_ringEnd]

/-- The last coordinate of a representable ring is the one with the last index of the
ring. -/
theorem nth?_ringEnd
    {r : Nat} (h : r ≤ s.lastRing) :
  nth? s ((2 * r + 1) ^ 2 - 1) = some (ringEnd s r)
  := by
  have hcell : Cell.nth ((2 * r + 1) ^ 2 - 1) = Cell.ringEnd r := by
    rw [← Cell.index_ringEnd, Cell.nth_index]
  rw [nth?_eq_some, ← Cell.ring_le_lastRing_iff, hcell, Cell.ring_ringEnd]
  exact ⟨h, coord?_ringEnd h⟩

/-- After the last coordinate of a representable ring the spiral goes on one cell outwards. -/
theorem next?_ringEnd
    {r : Nat} (h : r ≤ s.lastRing) :
  (ringEnd s r).next? s = ofInts? ((r + 1) * s.val) (-r * s.val)
  := by
  unfold next?
  rw [Cell.cell_of_coord? (coord?_ringEnd h), Cell.next_ringEnd]
  rfl

end Coord

namespace Settings

/-- The plots of the spiral: the coordinates of the walk from the spawn that lie outside the
exclusion, in the order of the walk. -/
def plots (settings : Settings) : List Coord :=
  ((List.range (settings.spacing.lastIndex + 1)).filterMap (Coord.nth? settings.spacing)).filter
    fun place => !settings.exclusion.contains place

/-- The index of the first cell outside the exclusion. -/
def firstIndex (settings : Settings) : Nat :=
  (2 * settings.exclusion.rings settings.spacing + 1) ^ 2

variable (settings : Settings)

/-- The walk up to an index, without the exclusion. -/
theorem filter_walk
    {m : Nat} (hm : m ≤ settings.spacing.lastIndex + 1) :
  (((List.range m).filterMap (Coord.nth? settings.spacing)).filter
      fun place => !settings.exclusion.contains place)
    = (List.range (m - settings.firstIndex)).map fun k =>
      (Coord.nth? settings.spacing (settings.firstIndex + k)).getD Coord.origin
  := by
  induction m with
  | zero => simp
  | succ m ih =>
    obtain ⟨c, hc⟩ : ∃ c, Coord.nth? settings.spacing m = some c := by
      rw [← Option.ne_none_iff_exists', Ne, Coord.nth?_eq_none]
      omega
    have hcovered := Coord.contains_of_nth? hc settings.exclusion
    rw [← firstIndex] at hcovered
    rw [List.range_succ, List.filterMap_append, List.filter_append, ih (by omega)]
    by_cases hlt : m < settings.firstIndex
    · have hnone : m + 1 - settings.firstIndex = m - settings.firstIndex := by
        omega
      simp [hc, hcovered.2 hlt, hnone]
    · have hsucc : m + 1 - settings.firstIndex = m - settings.firstIndex + 1 := by
        omega
      have hindex : settings.firstIndex + (m - settings.firstIndex) = m := by
        omega
      simp [hc, Bool.eq_false_iff.2 (mt hcovered.1 hlt), hsucc, List.range_succ, hindex]

/-- The plots are the coordinates of the walk from the first index outside the exclusion
on. -/
theorem getElem?_plots (k : Nat) :
  settings.plots[k]? = Coord.nth? settings.spacing (settings.firstIndex + k)
  := by
  rw [plots, settings.filter_walk (Nat.le_refl _), List.getElem?_map]
  by_cases hk : settings.firstIndex + k ≤ settings.spacing.lastIndex
  · obtain ⟨c, hc⟩ :
        ∃ c, Coord.nth? settings.spacing (settings.firstIndex + k) = some c := by
      rw [← Option.ne_none_iff_exists', Ne, Coord.nth?_eq_none]
      omega
    rw [List.getElem?_range (by omega), Option.map_some, hc, Option.getD_some]
  · rw [List.getElem?_eq_none (by simp; omega), Option.map_none, eq_comm, Coord.nth?_eq_none]
    omega

/-- The plots begin behind the last coordinate of the exclusion. -/
theorem head?_plots
    (h : settings.exclusion.rings settings.spacing ≤ settings.spacing.lastRing) :
  settings.plots.head?
    = (Coord.ringEnd settings.spacing (settings.exclusion.rings settings.spacing)).next?
        settings.spacing
  := by
  have hpos : 0 < settings.firstIndex := Nat.pow_pos (by omega)
  have hfirst : settings.firstIndex + 0 = settings.firstIndex - 1 + 1 := by
    omega
  have hlast : Coord.nth? settings.spacing (settings.firstIndex - 1)
      = some (Coord.ringEnd settings.spacing (settings.exclusion.rings settings.spacing)) :=
    Coord.nth?_ringEnd h
  rw [List.head?_eq_getElem?, getElem?_plots, hfirst, Coord.nth?, hlast, Option.bind_some]

/-- A plot is a coordinate of the walk. -/
theorem exists_nth?_of_mem_plots
    {place : Coord} (h : place ∈ settings.plots) :
  ∃ n, Coord.nth? settings.spacing n = some place
  := by
  obtain ⟨k, hk⟩ := List.mem_iff_getElem?.1 h
  rw [getElem?_plots] at hk
  exact ⟨_, hk⟩

/-- No plot comes twice. -/
theorem nodup_plots :
  settings.plots.Nodup
  := by
  rw [List.nodup_iff_injective_getElem]
  intro i j heq
  have hi := settings.getElem?_plots i
  have hj := settings.getElem?_plots j
  rw [List.getElem?_eq_getElem i.2] at hi
  rw [List.getElem?_eq_getElem j.2] at hj
  dsimp only at heq
  rw [heq] at hi
  have := Coord.nth?_injective hi.symm hj.symm
  exact Fin.ext (by omega)

end Settings

end IslandPlots
