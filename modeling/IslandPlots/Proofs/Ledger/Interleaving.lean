import IslandPlots.Proofs.Ledger.Replay
import Mathlib.Data.List.Dedup
import Mathlib.Data.List.Induction
import Mathlib.Data.List.Perm.Basic

/-!
# Interleaved records

What becomes of a plot depends on the records about it alone, and where the cursor ends on those
that move it (`Ledger.Governs`): records of another kind that are mixed with them are taken in or
rejected without any effect on it.  So two lists of records agree on every plot and on the cursor if
they are interleavings of the same records about each plot and of the same moves
(`Ledger.Interleaved`), and they are taken in or rejected alike.  Only the numbers of the records
differ, and with them the order of the orphans, which is that in which they were last given up
(`Ledger.orphans_applyAll_eq`).
-/

namespace IslandPlots

/-- A record moves the cursor. -/
def Record.isMove (r : Record) : Bool :=
  r.kind = .advance

/-- A record is about a plot. -/
def Record.isAbout (place : Coord) (r : Record) : Bool :=
  r.kind ≠ .advance && r.place = place

namespace Ledger

/-! ### Records that are taken in -/

/-- The records that are taken in when they are offered to a ledger one after the other. -/
def taken (ledger : Ledger) : List Record → List Record
  | [] => []
  | record :: rest =>
    match ledger.apply record with
    | .error _ => taken ledger rest
    | .ok after => record :: taken after rest

/-- A record that can be taken in is one of those that are. -/
@[simp]
theorem taken_cons_of_ok {ledger after : Ledger} {record : Record}
    (h : ledger.apply record = .ok after) (rest : List Record) :
  ledger.taken (record :: rest) = record :: after.taken rest
  := by
  rw [taken, h]

/-- A record that cannot be taken in is none of those that are. -/
@[simp]
theorem taken_cons_of_error {ledger : Ledger} {record : Record} {rejection : Rejection}
    (h : ledger.apply record = .error rejection) (rest : List Record) :
  ledger.taken (record :: rest) = ledger.taken rest
  := by
  rw [taken, h]

/-- The records that are taken in after others. -/
@[simp]
theorem taken_append (ledger : Ledger) (xs ys : List Record) :
  ledger.taken (xs ++ ys) = ledger.taken xs ++ (ledger.applyAll xs).taken ys
  := by
  induction xs generalizing ledger with
  | nil => rfl
  | cons record xs ih =>
    rw [List.cons_append]
    rcases happly : ledger.apply record with rejection | after
    · rw [taken_cons_of_error happly, taken_cons_of_error happly, applyAll_cons_of_error happly, ih]
    · simp [happly, ih]

/-- The records that are taken in are numbered. -/
theorem revision_applyAll_eq (ledger : Ledger) (records : List Record) :
  (ledger.applyAll records).revision = ledger.revision + (ledger.taken records).length
  := by
  induction records generalizing ledger with
  | nil => rfl
  | cons record records ih =>
    rcases happly : ledger.apply record with rejection | after
    · simp [happly, ih]
    · rw [applyAll_cons_of_ok happly, taken_cons_of_ok happly, ih, revision_apply happly,
        List.length_cons]
      omega

/-! ### Records that govern a part of the ledger -/

/-- Some records govern a part of the ledger: the others leave the part as it is, and what it is
decides whether a governing record is taken in and what it is then. -/
structure Governs {α : Type} (governing : Record → Bool) (part : Ledger → α) : Prop where
  leaves : ∀ {ledger after : Ledger} {record : Record}, governing record = false →
    ledger.apply record = .ok after → part after = part ledger
  decides : ∀ {ledger other after : Ledger} {record : Record}, governing record = true →
    part ledger = part other → ledger.apply record = .ok after →
    ∃ after', other.apply record = .ok after' ∧ part after = part after'

namespace Governs

variable {α : Type} {governing : Record → Bool} {part : Ledger → α} (h : Governs governing part)

include h

/-- A governing record that is rejected is rejected by every ledger with the same part. -/
theorem rejects
    {ledger other : Ledger} {record : Record} (hgoverning : governing record = true)
    (hpart : part ledger = part other) {rejection : Rejection}
    (hrejected : ledger.apply record = .error rejection) :
  ∃ rejection', other.apply record = .error rejection'
  := by
  rcases happly : other.apply record with rejection' | after
  · exact ⟨rejection', rfl⟩
  · obtain ⟨after', happly', -⟩ := h.decides hgoverning hpart.symm happly
    cases happly'.symm.trans hrejected

/-- Without the other records the same governing records are taken in, with the same end. -/
theorem restrict
    {ledger other : Ledger} (hpart : part ledger = part other) (records : List Record) :
  (ledger.taken records).filter governing = other.taken (records.filter governing)
    ∧ part (ledger.applyAll records) = part (other.applyAll (records.filter governing))
  := by
  induction records generalizing ledger other with
  | nil => exact ⟨rfl, hpart⟩
  | cons record records ih =>
    rcases hgoverning : governing record with _ | _
    · rw [List.filter_cons_of_neg (by rw [hgoverning]; nofun)]
      rcases happly : ledger.apply record with rejection | after
      · rw [taken_cons_of_error happly, applyAll_cons_of_error happly]
        exact ih hpart
      · rw [taken_cons_of_ok happly, applyAll_cons_of_ok happly,
          List.filter_cons_of_neg (by rw [hgoverning]; nofun)]
        exact ih ((h.leaves hgoverning happly).trans hpart)
    · rw [List.filter_cons_of_pos hgoverning]
      rcases happly : ledger.apply record with rejection | after
      · obtain ⟨rejection', happly'⟩ := h.rejects hgoverning hpart happly
        simpa [happly, happly'] using ih hpart
      · obtain ⟨after', happly', hafter⟩ := h.decides hgoverning hpart happly
        obtain ⟨htaken, hend⟩ := ih hafter
        simpa [happly, happly', hgoverning, htaken] using hend

/-- Lists with the same governing records have the same effect on the part. -/
theorem agree
    {xs ys : List Record} (hsame : xs.filter governing = ys.filter governing) (ledger : Ledger) :
  (ledger.taken xs).filter governing = (ledger.taken ys).filter governing
    ∧ part (ledger.applyAll xs) = part (ledger.applyAll ys)
  := by
  obtain ⟨htaken, hend⟩ := h.restrict (rfl : part ledger = part ledger) xs
  obtain ⟨htaken', hend'⟩ := h.restrict (rfl : part ledger = part ledger) ys
  rw [htaken, htaken', hend, hend', hsame]
  exact ⟨rfl, rfl⟩

end Governs

/-- The records about a plot govern its tenure. -/
theorem governs_tenure? (place : Coord) :
  Governs (Record.isAbout place) (·.tenure? place)
  := by
  constructor
  · intro ledger after record hother happly
    rw [tenure?_apply happly]
    apply if_neg
    rintro ⟨hk, rfl⟩
    simp [Record.isAbout, hk] at hother
  · intro ledger other after record habout hpart happly
    obtain ⟨hk, rfl⟩ : record.kind ≠ .advance ∧ record.place = place := by
      simpa [Record.isAbout] using habout
    have hstanding : other.standing? record.place = ledger.standing? record.place := by
      rw [standing?_eq, standing?_eq, hpart]
    obtain ⟨after', happly'⟩ := exists_apply (hstanding ▸ allows_of_apply happly)
    refine ⟨after', happly', ?_⟩
    rw [tenure?_apply happly, tenure?_apply happly', if_pos ⟨hk, rfl⟩, if_pos ⟨hk, rfl⟩]

/-- The records that move the cursor govern where it is. -/
theorem governs_cursor :
  Governs Record.isMove Ledger.cursor
  := by
  constructor
  · intro ledger after record hother happly
    rcases apply_cases happly with ⟨hk, -⟩ | ⟨-, -, rfl⟩
    · simp [Record.isMove, hk] at hother
    · rfl
  · intro ledger other after record hmove _ happly
    have hk : record.kind = .advance := by
      simpa [Record.isMove] using hmove
    obtain ⟨after', happly'⟩ : ∃ after', other.apply record = .ok after' := by
      apply exists_apply
      rw [hk]
      rfl
    refine ⟨after', happly', ?_⟩
    rcases apply_cases happly with ⟨-, rfl⟩ | ⟨hnot, -⟩
    · rcases apply_cases happly' with ⟨-, rfl⟩ | ⟨hnot, -⟩
      · rfl
      · exact absurd hk hnot
    · exact absurd hk hnot

/-! ### Interleavings -/

/-- Two lists have the same moves of the cursor, in the same order, and for every plot the same
records about it, in the same order. -/
structure Interleaved (xs ys : List Record) : Prop where
  moves : xs.filter Record.isMove = ys.filter Record.isMove
  stories : ∀ place, xs.filter (Record.isAbout place) = ys.filter (Record.isAbout place)

namespace Interleaved

variable {xs ys : List Record}

/-- It is enough to look at the plots that the records are about. -/
theorem of_mem
    (hmoves : xs.filter Record.isMove = ys.filter Record.isMove)
    (hstories : ∀ r ∈ xs ++ ys,
      xs.filter (Record.isAbout r.place) = ys.filter (Record.isAbout r.place)) :
  Interleaved xs ys
  := by
  refine ⟨hmoves, fun place => ?_⟩
  by_cases hknown : ∃ r ∈ xs ++ ys, r.place = place
  · obtain ⟨r, hr, rfl⟩ := hknown
    exact hstories r hr
  · have hnone : ∀ r ∈ xs ++ ys, ¬ Record.isAbout place r = true := by
      intro r hr habout
      have hplace : r.kind ≠ .advance ∧ r.place = place := by
        simpa [Record.isAbout] using habout
      exact hknown ⟨r, hr, hplace.2⟩
    rw [List.forall_mem_append] at hnone
    rw [List.filter_eq_nil_iff.2 hnone.1, List.filter_eq_nil_iff.2 hnone.2]

/-- Whether two lists are interleavings of the same records can be decided. -/
instance : Decidable (Interleaved xs ys) :=
  decidable_of_iff
    (xs.filter Record.isMove = ys.filter Record.isMove
      ∧ ∀ r ∈ xs ++ ys, xs.filter (Record.isAbout r.place) = ys.filter (Record.isAbout r.place))
    ⟨fun h => of_mem h.1 h.2, fun h => ⟨h.moves, fun r _ => h.stories r.place⟩⟩

variable (h : Interleaved xs ys)

include h

/-- Interleavings consist of the same records. -/
theorem perm :
  xs.Perm ys
  := by
  rw [List.perm_iff_count]
  intro r
  by_cases hk : r.kind = .advance
  · have hmove : Record.isMove r = true := decide_eq_true hk
    rw [← List.count_filter hmove, h.moves, List.count_filter hmove]
  · have habout : Record.isAbout r.place r = true := by
      simp [Record.isAbout, hk]
    rw [← List.count_filter habout, h.stories, List.count_filter habout]

/-- The records that are taken in of interleavings are interleavings. -/
theorem taken (ledger : Ledger) :
  Interleaved (ledger.taken xs) (ledger.taken ys)
  := ⟨(governs_cursor.agree h.moves ledger).1,
    fun place => ((governs_tenure? place).agree (h.stories place) ledger).1⟩

/-- Interleavings give every plot the same tenure. -/
theorem tenure?_applyAll (ledger : Ledger) (place : Coord) :
  (ledger.applyAll xs).tenure? place = (ledger.applyAll ys).tenure? place
  := ((governs_tenure? place).agree (h.stories place) ledger).2

/-- Interleavings move the cursor to the same coordinate. -/
theorem cursor_applyAll (ledger : Ledger) :
  (ledger.applyAll xs).cursor = (ledger.applyAll ys).cursor
  := (governs_cursor.agree h.moves ledger).2

/-- As many records are taken in of interleavings. -/
theorem revision_applyAll (ledger : Ledger) :
  (ledger.applyAll xs).revision = (ledger.applyAll ys).revision
  := by
  rw [revision_applyAll_eq, revision_applyAll_eq, (h.taken ledger).perm.length_eq]

/-- Interleavings leave the same orphans, in some order. -/
theorem orphans_applyAll
    {ledger : Ledger} (hd : ledger.Distinct) :
  (ledger.applyAll xs).orphans.Perm (ledger.applyAll ys).orphans
  := by
  rw [List.perm_ext_iff_of_nodup (hd.applyAll xs).nodup_orphans (hd.applyAll ys).nodup_orphans]
  intro place
  rw [(hd.applyAll xs).mem_orphans, (hd.applyAll ys).mem_orphans, standing?_eq, standing?_eq,
    h.tenure?_applyAll]

end Interleaved

/-! ### The order of the orphans -/

/-- Whether a plot was given up and waits to be handed out again. -/
def isOrphaned (ledger : Ledger) (place : Coord) : Bool :=
  ledger.standing? place = some .orphaned

/-- The plots that are given up by the records that are taken in, in the order of these. -/
def givenUp (ledger : Ledger) (records : List Record) : List Coord :=
  ((ledger.taken records).filter fun r => r.kind = .orphan).map (·.place)

/-- A record that is rejected gives up no plot. -/
theorem givenUp_concat_of_error
    {ledger : Ledger} {records : List Record} {record : Record} {rejection : Rejection}
    (h : (ledger.applyAll records).apply record = .error rejection) :
  ledger.givenUp (records ++ [record]) = ledger.givenUp records
  := by
  unfold givenUp
  simp [h, taken]

/-- A record that is taken in gives up its plot if it is a loss. -/
theorem givenUp_concat_of_ok
    {ledger after : Ledger} {records : List Record} {record : Record}
    (h : (ledger.applyAll records).apply record = .ok after) :
  ledger.givenUp (records ++ [record])
    = ledger.givenUp records ++ if record.kind = .orphan then [record.place] else []
  := by
  unfold givenUp
  rw [taken_append, taken_cons_of_ok h, taken, List.filter_append, List.map_append,
    List.filter_singleton]
  by_cases hk : record.kind = .orphan <;> simp [hk]

/-- An element that is added at the end is the last of its kind. -/
theorem dedup_concat {α : Type} [DecidableEq α] (xs : List α) (x : α) :
  (xs ++ [x]).dedup = xs.dedup.filter (· ≠ x) ++ [x]
  := by
  induction xs with
  | nil => rfl
  | cons y xs ih =>
    rw [List.cons_append]
    by_cases hmem : y ∈ xs
    · rw [List.dedup_cons_of_mem (List.mem_append_left _ hmem), List.dedup_cons_of_mem hmem, ih]
    · rw [List.dedup_cons_of_notMem hmem]
      by_cases hlast : y = x
      · subst hlast
        rw [List.dedup_cons_of_mem (List.mem_append_right _ List.mem_cons_self), ih,
          List.filter_cons_of_neg (by simp)]
      · rw [List.dedup_cons_of_notMem (by simp [hmem, hlast]), ih,
          List.filter_cons_of_pos (by simpa using hlast), List.cons_append]

/-- Which plots are orphans after a record is taken in. -/
theorem isOrphaned_apply {ledger after : Ledger} {record : Record}
    (h : ledger.apply record = .ok after) (place : Coord) :
  after.isOrphaned place = match record.kind with
    | .assign => decide (place ≠ record.place) && ledger.isOrphaned place
    | .orphan => decide (place = record.place) || ledger.isOrphaned place
    | .advance => ledger.isOrphaned place
  := by
  unfold isOrphaned
  rw [standing?_apply h]
  by_cases hplace : place = record.place
  · subst hplace
    rcases hk : record.kind with _ | _ | _ <;> simp [standingAfter]
  · rcases hk : record.kind with _ | _ | _ <;> simp [hplace]

/-- The orphans stand in the order in which they were last given up. -/
theorem orphans_applyAll_eq
    {ledger : Ledger} (hd : ledger.Distinct) (hnone : ledger.orphans = [])
    (records : List Record) :
  (ledger.applyAll records).orphans
    = (ledger.givenUp records).dedup.filter (ledger.applyAll records).isOrphaned
  := by
  induction records using List.reverseRecOn with
  | nil => exact hnone
  | append_singleton records record ih =>
    have hdistinct := hd.applyAll records
    rw [applyAll_append]
    rcases happly : (ledger.applyAll records).apply record with rejection | after
    · rw [givenUp_concat_of_error happly, applyAll_cons_of_error happly]
      exact ih
    · have horphans := hdistinct.orphans_apply happly
      have hisOrphaned := isOrphaned_apply happly
      rw [givenUp_concat_of_ok happly, applyAll_cons_of_ok happly]
      change after.orphans = List.filter after.isOrphaned _
      rcases hk : record.kind with _ | _ | _ <;> rw [hk] at horphans hisOrphaned <;>
        simp only at horphans hisOrphaned
      · rw [horphans, ih, List.filter_filter, if_neg nofun, List.append_nil]
        exact List.filter_congr fun place _ => (hisOrphaned place).symm
      · -- The plot was held, so it is not in the queue yet.
        have hheld : (ledger.applyAll records).isOrphaned record.place = false := by
          have hallows := allows_of_apply happly
          rw [hk, allows_orphan] at hallows
          rw [isOrphaned, hallows]
          rfl
        have hlast : after.isOrphaned record.place = true := by
          rw [hisOrphaned]
          simp
        rw [horphans, ih, if_pos rfl, dedup_concat, List.filter_append, List.filter_filter,
          List.filter_cons_of_pos hlast, List.filter_nil]
        congr 1
        apply List.filter_congr
        intro place _
        rw [hisOrphaned]
        by_cases hplace : place = record.place
        · rw [hplace, hheld]
          simp
        · simp [hplace]
      · rw [horphans, ih, if_neg nofun, List.append_nil]
        exact List.filter_congr fun place _ => (hisOrphaned place).symm

end Ledger

end IslandPlots
