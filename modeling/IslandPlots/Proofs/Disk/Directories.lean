import IslandPlots.Proofs.Disk.Entries

/-!
# Making directories

Making a directory adds entries for directories only (`Disk.Grows`).  If it succeeds there
is a directory afterwards (`Disk.makeTree_ok`), and if there was one before
nothing changes (`Disk.makeTree_of_isDirectory`).
-/

namespace IslandPlots

namespace Disk

/-- Nothing is changed but that there are further directories. -/
structure Grows (before after : Disk) : Prop where
  here : after.here = before.here
  contents : after.contents = before.contents
  entry : ∀ location, after.entry? location = before.entry? location
    ∨ (before.entry? location = none ∧ after.entry? location = some .directory)

/-- A disk grows from itself. -/
theorem Grows.refl (disk : Disk) :
  Grows disk disk
  := ⟨rfl, rfl, fun _ => .inl rfl⟩

/-- Growth can go on. -/
theorem Grows.trans {before between after : Disk} (h : Grows before between)
    (h' : Grows between after) :
  Grows before after
  := by
  refine ⟨h'.here.trans h.here, h'.contents.trans h.contents, fun location => ?_⟩
  rcases h'.entry location with heq | ⟨hnone, hdir⟩
  · rw [heq]
    exact h.entry location
  · right
    rcases h.entry location with heq | ⟨-, hdir'⟩
    · exact ⟨heq ▸ hnone, hdir⟩
    · rw [hnone] at hdir'
      cases hdir'

/-- A disk that grows keeps its directories. -/
theorem Grows.keeps {before after : Disk} (h : Grows before after) :
  Keeps before after
  := by
  refine ⟨h.here, fun {location} hdir => ?_⟩
  rcases h.entry location with heq | ⟨-, hafter⟩
  · rw [heq, hdir]
  · exact hafter

/-- A disk that grows has no further files. -/
theorem Grows.file {before after : Disk} (h : Grows before after)
    {location : Location} {number : Nat}
    (hentry : after.entry? location = some (.file number)) :
  before.entry? location = some (.file number)
  := by
  rcases h.entry location with heq | ⟨-, hafter⟩
  · rw [← heq, hentry]
  · rw [hentry] at hafter
    cases hafter

/-- A disk that grows stays well-formed. -/
theorem Grows.wellFormed {before after : Disk} (h : Grows before after) (hwf : before.WellFormed) :
  after.WellFormed
  := by
  constructor
  · rw [h.here]
    exact h.keeps.directory hwf.here
  · intro location number hentry
    rw [h.contents]
    exact hwf.exists_file (h.file hentry)
  · intro location other number hentry hother
    exact hwf.unique (h.file hentry) (h.file hother)

/-- A path without names leads to where it begins. -/
theorem isDirectory_nil {disk : Disk} (h : disk.entry? disk.here = some .directory)
    (absolute : Bool) :
  disk.isDirectory ⟨absolute, []⟩ = true
  := by
  apply isDirectory_iff.2
  use disk.start ⟨absolute, []⟩, rfl
  cases absolute with
  | false => exact h
  | true => rfl

/-- Making a directory makes it. -/
theorem makeDir_ok {before after : Disk} {path : Path} (h : before.makeDir path = .ok after) :
  Grows before after ∧ after.isDirectory path = true
  := by
  obtain ⟨absolute, names⟩ := path
  unfold makeDir at h
  rcases List.eq_nil_or_concat names with rfl | ⟨front, name, rfl⟩
  · cases h
  · rw [List.concat_eq_append] at h ⊢
    simp only [List.getLast?_append, List.getLast?_singleton, Option.some_or,
      List.dropLast_append_of_ne_nil (List.cons_ne_nil _ _), List.dropLast_singleton,
      List.append_nil] at h
    split at h
    · cases h
    next above hwalk =>
    split at h
    · cases h
    next location hstep =>
    split_ifs at h with hmade
    cases h
    obtain ⟨hdot, hdots, hnone⟩ : name ≠ "." ∧ name ≠ ".." ∧ before.entry? location = none := by
      simpa using hmade
    have hgrows : Grows before (before.bind location .directory) := by
      refine ⟨rfl, rfl, fun other => ?_⟩
      rw [entry?_bind]
      by_cases hother : other = location
      · subst hother
        right
        rw [hnone, if_pos rfl]
        exact ⟨rfl, rfl⟩
      · left
        rw [if_neg hother, Option.or_none]
    refine ⟨hgrows, isDirectory_iff.2 ⟨location, ?_, ?_⟩⟩
    · rw [walk_concat, hgrows.keeps.walk hwalk]
      exact hgrows.keeps.step hstep
    · rw [entry?_bind, hnone, if_pos rfl]
      rfl

/-- Making a directory that is there fails. -/
theorem makeDir_of_isDirectory {disk : Disk} {path : Path} (h : disk.isDirectory path = true)
    (hpath : ¬ (path.absolute = false ∧ path.names = [])) :
  disk.makeDir path = .error .alreadyExists
  := by
  obtain ⟨absolute, names⟩ := path
  unfold makeDir
  rcases List.eq_nil_or_concat names with rfl | ⟨front, name, rfl⟩
  · cases absolute with
    | false => exact absurd ⟨rfl, rfl⟩ hpath
    | true => rfl
  · rw [List.concat_eq_append] at h ⊢
    obtain ⟨location, hwalk, hentry⟩ := isDirectory_iff.1 h
    rw [walk_concat] at hwalk
    rcases habove : disk.walk ⟨absolute, front⟩ with e | above
    · rw [habove] at hwalk
      cases hwalk
    · rw [habove] at hwalk
      have hstep : disk.step above name = .ok location := hwalk
      simp only [List.getLast?_append, List.getLast?_singleton, Option.some_or,
        List.dropLast_append_of_ne_nil (List.cons_ne_nil _ _), List.dropLast_singleton,
        List.append_nil, habove, hstep, hentry]
      rw [if_pos (.inr (.inr rfl))]

/-- Making a directory that is there, and those above it, changes nothing. -/
theorem makeDirs_of_isDirectory {disk : Disk} {path : Path} (h : disk.isDirectory path = true) :
  disk.makeDirs path = (.ok (), disk)
  := by
  rw [makeDirs]
  by_cases hpath : path.absolute = false ∧ path.names = []
  · rw [if_pos hpath]
  · rw [if_neg hpath, makeDir_of_isDirectory h hpath]
    simp only [if_pos h]

/-- Making a directory, and those above it, makes it if that succeeds. -/
theorem makeDirs_grows
    {disk : Disk} (hhere : disk.entry? disk.here = some .directory) (path : Path) :
  Grows disk (disk.makeDirs path).2
    ∧ ((disk.makeDirs path).1 = .ok () → (disk.makeDirs path).2.isDirectory path = true)
  := by
  fun_induction makeDirs disk path with
  | case1 path hpath =>
    refine ⟨.refl disk, fun _ => ?_⟩
    obtain ⟨absolute, names⟩ := path
    obtain ⟨-, rfl⟩ := hpath
    exact isDirectory_nil hhere absolute
  | case2 path _ after hmade =>
    obtain ⟨hgrows, hdirectory⟩ := makeDir_ok hmade
    exact ⟨hgrows, fun _ => hdirectory⟩
  | case3 => exact ⟨.refl disk, nofun⟩
  | case4 _ _ _ above _ e after habove ih =>
    rw [habove] at ih
    exact ⟨ih.1, nofun⟩
  | case5 path _ _ above _ between habove after hmade ih =>
    rw [habove] at ih
    obtain ⟨hgrows, hdirectory⟩ := makeDir_ok hmade
    exact ⟨ih.1.trans hgrows, fun _ => hdirectory⟩
  | case6 path _ _ above _ between habove e _ ih =>
    rw [habove] at ih
    refine ⟨ih.1, fun h => ?_⟩
    dsimp only at h
    split_ifs at h with hdirectory
    exact hdirectory
  | case7 path =>
    refine ⟨.refl disk, fun h => ?_⟩
    dsimp only at h
    split_ifs at h with hdirectory
    exact hdirectory

/-- Making the directory a text path leads to makes it if that succeeds. -/
theorem makeTree_ok {before after : Disk} (hhere : before.entry? before.here = some .directory)
    {text : String} (h : before.makeTree text = (.ok (), after)) :
  pathOf text = .ok (Path.ofText text) ∧ Grows before after
    ∧ after.isDirectory (Path.ofText text) = true
  := by
  unfold makeTree at h
  rcases hpath : pathOf text with e | path
  · rw [hpath] at h
    cases h
  · obtain rfl : path = Path.ofText text := by
      unfold pathOf at hpath
      split_ifs at hpath
      exact (Except.ok.inj hpath).symm
    rw [hpath] at h
    obtain ⟨hgrows, hdirectory⟩ := makeDirs_grows hhere (Path.ofText text)
    dsimp only at h
    rw [h] at hgrows hdirectory
    exact ⟨rfl, hgrows, hdirectory rfl⟩

/-- Making the directory a text path leads to changes nothing when it is there. -/
theorem makeTree_of_isDirectory {disk : Disk} {text : String}
    (hpath : pathOf text = .ok (Path.ofText text))
    (h : disk.isDirectory (Path.ofText text) = true) :
  disk.makeTree text = (.ok (), disk)
  := by
  unfold makeTree
  rw [hpath]
  exact makeDirs_of_isDirectory h

end Disk

end IslandPlots
