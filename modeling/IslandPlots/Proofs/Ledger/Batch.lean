import IslandPlots.Proofs.Ledger.Apply

/-!
# Taking records in together

Records are checked against the standings of their plots before any of them is taken in.
The check passes exactly when each of them can be taken in after those before it
(`Ledger.accepts_cons`), so what `Ledger.applyAll` skips is never one of a batch that was
checked.
-/

namespace IslandPlots

namespace Ledger

/-- The check of records passes. -/
def Accepts (ledger : Ledger) (records : List Record) : Prop :=
  checkAll ledger.standing? records = .ok ()

/-- Records that are taken in after others. -/
@[simp]
theorem applyAll_append (ledger : Ledger) (xs ys : List Record) :
  ledger.applyAll (xs ++ ys) = (ledger.applyAll xs).applyAll ys
  := List.foldl_append

/-- A record that can be taken in is taken in before those after it. -/
@[simp]
theorem applyAll_cons_of_ok {ledger after : Ledger} {record : Record}
    (h : ledger.apply record = .ok after) (records : List Record) :
  ledger.applyAll (record :: records) = after.applyAll records
  := by
  rw [applyAll, List.foldl_cons, h]
  rfl

/-- A record that cannot be taken in changes nothing. -/
@[simp]
theorem applyAll_cons_of_error {ledger : Ledger} {record : Record} {rejection : Rejection}
    (h : ledger.apply record = .error rejection) (records : List Record) :
  ledger.applyAll (record :: records) = ledger.applyAll records
  := by
  rw [applyAll, List.foldl_cons, h]
  rfl

/-- What each record keeps is kept by all of them. -/
theorem applyAll_induct {P : Ledger → Prop} {ledger : Ledger} {records : List Record}
    (hledger : P ledger)
    (hstep : ∀ before record after, record ∈ records → P before →
      before.apply record = .ok after → P after) :
  P (ledger.applyAll records)
  := by
  induction records generalizing ledger with
  | nil => exact hledger
  | cons record records ih =>
    rcases happly : ledger.apply record with rejection | after
    · rw [applyAll_cons_of_error happly]
      apply ih hledger
      intro before other after hmem
      exact hstep before other after (List.mem_cons_of_mem _ hmem)
    · rw [applyAll_cons_of_ok happly]
      apply ih (hstep ledger record after List.mem_cons_self hledger happly)
      intro before other after hmem
      exact hstep before other after (List.mem_cons_of_mem _ hmem)

/-- Records leave one reservation for each plot. -/
theorem Distinct.applyAll {ledger : Ledger} (h : ledger.Distinct) (records : List Record) :
  (ledger.applyAll records).Distinct
  := applyAll_induct h fun _ _ _ _ hd happly => hd.apply happly

/-- Records about other plots, and those that move the cursor, leave the tenure of a
plot. -/
theorem tenure?_applyAll_of_forall {ledger : Ledger} {records : List Record} {place : Coord}
    (h : ∀ r ∈ records, r.kind = .advance ∨ r.place ≠ place) :
  (ledger.applyAll records).tenure? place = ledger.tenure? place
  := by
  apply applyAll_induct (P := fun after => after.tenure? place = ledger.tenure? place) rfl
  intro before record after hmem hbefore happly
  rw [tenure?_apply happly, if_neg, hbefore]
  rintro ⟨hk, rfl⟩
  rcases h record hmem with hadvance | hplace
  · exact hk hadvance
  · exact hplace rfl

/-- Records about other plots leave a plot to whoever holds it. -/
theorem isAssigned_applyAll_of_forall {ledger : Ledger} {records : List Record} {place : Coord}
    (h : ∀ r ∈ records, r.kind = .advance ∨ r.place ≠ place) :
  (ledger.applyAll records).isAssigned place = ledger.isAssigned place
  := by
  rw [isAssigned, isAssigned, standing?_eq, standing?_eq, tenure?_applyAll_of_forall h]

/-- Records leave the cursor, or one of them moves it to where it is afterwards. -/
theorem cursor_applyAll (ledger : Ledger) (records : List Record) :
  (ledger.applyAll records).cursor = ledger.cursor
    ∨ ∃ r ∈ records, r.kind = .advance ∧ (ledger.applyAll records).cursor = r.place
  := by
  apply applyAll_induct (P := fun after => after.cursor = ledger.cursor
    ∨ ∃ r ∈ records, r.kind = .advance ∧ after.cursor = r.place) (.inl rfl)
  intro before record after hmem hbefore happly
  rcases apply_cases happly with ⟨hk, rfl⟩ | ⟨-, -, rfl⟩
  · exact .inr ⟨record, hmem, hk, rfl⟩
  · exact hbefore

/-- Records that do not move the cursor leave it. -/
theorem cursor_applyAll_of_forall {ledger : Ledger} {records : List Record}
    (h : ∀ r ∈ records, r.kind ≠ .advance) :
  (ledger.applyAll records).cursor = ledger.cursor
  := by
  rcases ledger.cursor_applyAll records with hsame | ⟨r, hr, hk, -⟩
  · exact hsame
  · exact absurd hk (h r hr)

/-- Every tenure of a ledger has a property. -/
def AllTenures (P : Tenure → Prop) (ledger : Ledger) : Prop :=
  ∀ place tenure, ledger.tenure? place = some tenure → P tenure

/-- A property that all records give to the tenures they begin stays with every tenure. -/
theorem AllTenures.applyAll {P : Tenure → Prop} {ledger : Ledger} (h : ledger.AllTenures P)
    {records : List Record} (hrecords : ∀ r ∈ records, r.kind ≠ .advance → P r.tenure) :
  (ledger.applyAll records).AllTenures P
  := by
  refine applyAll_induct h ?_
  intro before record after hmem hbefore happly place tenure hfound
  rw [tenure?_apply happly] at hfound
  split_ifs at hfound with hbegun
  · rw [← Option.some.inj hfound]
    exact hrecords record hmem hbegun.1
  · exact hbefore place tenure hfound

/-! ### Checked records -/

/-- The check goes on after a record that can be taken in. -/
@[simp]
theorem checkAll_cons_of_ok {ledger after : Ledger} {record : Record}
    (h : ledger.apply record = .ok after) (records : List Record) :
  checkAll ledger.standing? (record :: records) = checkAll after.standing? records
  := by
  rw [checkAll, if_pos (allows_of_apply h), standing?_apply h]

/-- The check ends at a record that cannot be taken in. -/
@[simp]
theorem checkAll_cons_of_error {ledger : Ledger} {record : Record} {rejection : Rejection}
    (h : ledger.apply record = .error rejection) (records : List Record) :
  checkAll ledger.standing? (record :: records)
    = .error (record, ledger.standing? record.place)
  := by
  rw [checkAll]
  apply if_neg
  intro hallows
  obtain ⟨after, happly⟩ := exists_apply hallows
  cases happly.symm.trans h

/-- A check passes when the first record can be taken in and the check of the others
passes after it. -/
theorem accepts_cons {ledger : Ledger} {record : Record} {records : List Record} :
  ledger.Accepts (record :: records)
    ↔ ∃ after, ledger.apply record = .ok after ∧ after.Accepts records
  := by
  unfold Accepts
  rcases happly : ledger.apply record with rejection | after
  · rw [checkAll_cons_of_error happly]
    apply iff_of_false nofun
    rintro ⟨after, ⟨⟩, -⟩
  · rw [checkAll_cons_of_ok happly]
    constructor
    · exact fun h => ⟨after, rfl, h⟩
    · rintro ⟨_, ⟨⟩, h⟩
      exact h

/-- The check goes on after records that pass it. -/
theorem checkAll_append {ledger : Ledger} {xs : List Record} (h : ledger.Accepts xs)
    (ys : List Record) :
  checkAll ledger.standing? (xs ++ ys) = checkAll (ledger.applyAll xs).standing? ys
  := by
  induction xs generalizing ledger with
  | nil => rfl
  | cons record xs ih =>
    obtain ⟨after, happly, hafter⟩ := accepts_cons.1 h
    simp [happly, ih hafter]

/-- The check of records and others after them. -/
theorem accepts_append {ledger : Ledger} {xs ys : List Record} :
  ledger.Accepts (xs ++ ys) ↔ ledger.Accepts xs ∧ (ledger.applyAll xs).Accepts ys
  := by
  induction xs generalizing ledger with
  | nil => exact (and_iff_right rfl).symm
  | cons record xs ih =>
    rw [List.cons_append, accepts_cons, accepts_cons]
    constructor
    · rintro ⟨after, happly, h⟩
      rw [applyAll_cons_of_ok happly]
      obtain ⟨hxs, hys⟩ := ih.1 h
      exact ⟨⟨after, happly, hxs⟩, hys⟩
    · rintro ⟨⟨after, happly, hxs⟩, hys⟩
      rw [applyAll_cons_of_ok happly] at hys
      exact ⟨after, happly, ih.2 ⟨hxs, hys⟩⟩

/-- Each of the records that pass the check can be taken in after those before it. -/
theorem Accepts.exists_apply
    {ledger : Ledger} {before after : List Record} {record : Record}
    (h : ledger.Accepts (before ++ record :: after)) :
  ∃ next, (ledger.applyAll before).apply record = .ok next
  := by
  obtain ⟨next, happly, -⟩ := accepts_cons.1 (accepts_append.1 h).2
  exact ⟨next, happly⟩

/-- The check passes for a beginning of records for which it passes. -/
theorem Accepts.take {ledger : Ledger} {records : List Record} (h : ledger.Accepts records)
    (j : Nat) :
  ledger.Accepts (records.take j)
  := by
  rw [← List.take_append_drop j records] at h
  exact (accepts_append.1 h).1

/-- The check of records about different plots looks at the standings before them only. -/
theorem accepts_of_nodup {ledger : Ledger} {records : List Record}
    (hnodup : (records.map (·.place)).Nodup)
    (h : ∀ r ∈ records, allows (ledger.standing? r.place) r.kind = true) :
  ledger.Accepts records
  := by
  induction records generalizing ledger with
  | nil => rfl
  | cons record records ih =>
    rw [List.map_cons, List.nodup_cons] at hnodup
    rw [List.forall_mem_cons] at h
    obtain ⟨after, happly⟩ := exists_apply h.1
    apply accepts_cons.2
    use after, happly
    apply ih hnodup.2
    intro r hr
    have hplace : r.place ≠ record.place := by
      intro heq
      exact hnodup.1 (heq ▸ List.mem_map_of_mem hr)
    simp only [standing?_apply happly, if_neg hplace]
    exact h.2 r hr

/-- Moves of the cursor can always be taken in. -/
theorem accepts_of_advance {ledger : Ledger} {records : List Record}
    (h : ∀ r ∈ records, r.kind = .advance) :
  ledger.Accepts records
  := by
  induction records generalizing ledger with
  | nil => rfl
  | cons record records ih =>
    rw [List.forall_mem_cons] at h
    have hallows : allows (ledger.standing? record.place) record.kind = true := by
      rw [h.1]
      rfl
    obtain ⟨after, happly⟩ := exists_apply hallows
    exact accepts_cons.2 ⟨after, happly, ih h.2⟩

/-- A plot that nobody holds can be assigned, also when the cursor is moved with the
assignment. -/
theorem accepts_assign {ledger : Ledger} {place : Coord} {owner : Option String} {now : UInt64}
    {moves : List Record} (h : ledger.standing? place ≠ some .assigned)
    (hmoves : ∀ r ∈ moves, r.kind = .advance) :
  ledger.Accepts (.assign place owner now :: moves)
  := by
  obtain ⟨after, happly⟩ : ∃ after, ledger.apply (.assign place owner now) = .ok after :=
    exists_apply (allows_assign.2 h)
  exact accepts_cons.2 ⟨after, happly, accepts_of_advance hmoves⟩

/-- A record begins the tenure of its plot, if those after it are about other plots or move
the cursor. -/
theorem tenure?_applyAll_cons {ledger : Ledger} {record : Record} {records : List Record}
    (h : ledger.Accepts (record :: records)) (hk : record.kind ≠ .advance)
    (hother : ∀ r ∈ records, r.kind = .advance ∨ r.place ≠ record.place) :
  (ledger.applyAll (record :: records)).tenure? record.place = some record.tenure
  := by
  obtain ⟨after, happly, -⟩ := accepts_cons.1 h
  rw [applyAll_cons_of_ok happly, tenure?_applyAll_of_forall hother, tenure?_apply happly,
    if_pos ⟨hk, rfl⟩]

/-- An assignment begins a tenure of its plot, also when the cursor is moved with the
assignment. -/
theorem tenure?_applyAll_assign {ledger : Ledger} {place : Coord} {owner : Option String}
    {now : UInt64} {moves : List Record} (hmoves : ∀ r ∈ moves, r.kind = .advance)
    (h : ledger.Accepts (.assign place owner now :: moves)) :
  (ledger.applyAll (.assign place owner now :: moves)).tenure? place
    = some (Record.assign place owner now).tenure
  := tenure?_applyAll_cons h nofun fun r hr => .inl (hmoves r hr)

/-- The cursor is at a plot that was assigned together with a move of the cursor to it. -/
theorem cursor_applyAll_assign {ledger : Ledger} {place : Coord} {owner : Option String}
    {now : UInt64} (h : ledger.Accepts [.assign place owner now, .advance place now]) :
  (ledger.applyAll [.assign place owner now, .advance place now]).cursor = place
  := by
  obtain ⟨after, happly, -⟩ := accepts_cons.1 h
  rw [applyAll_cons_of_ok happly]
  rfl

/-- After an assignment somebody holds its plot. -/
theorem isAssigned_applyAll_assign {ledger : Ledger} {place : Coord} {owner : Option String}
    {now : UInt64} {moves : List Record} (hmoves : ∀ r ∈ moves, r.kind = .advance)
    (h : ledger.Accepts (.assign place owner now :: moves)) :
  (ledger.applyAll (.assign place owner now :: moves)).isAssigned place = true
  := by
  rw [isAssigned_iff, standing?_eq, tenure?_applyAll_assign hmoves h]
  rfl

/-- Records about different plots begin the tenures of their plots. -/
theorem tenure?_applyAll_of_mem {ledger : Ledger} {records : List Record}
    (hnodup : (records.map (·.place)).Nodup) (h : ledger.Accepts records) {r : Record}
    (hr : r ∈ records) (hk : r.kind ≠ .advance) :
  (ledger.applyAll records).tenure? r.place = some r.tenure
  := by
  induction records generalizing ledger with
  | nil => cases hr
  | cons record records ih =>
    rw [List.map_cons, List.nodup_cons] at hnodup
    rcases List.mem_cons.1 hr with rfl | hr
    · apply tenure?_applyAll_cons h hk
      intro other hother
      right
      intro heq
      exact hnodup.1 (heq ▸ List.mem_map_of_mem hother)
    · obtain ⟨after, happly, hafter⟩ := accepts_cons.1 h
      rw [applyAll_cons_of_ok happly]
      exact ih hnodup.2 hafter hr

/-- Each checked record is numbered. -/
theorem revision_applyAll {ledger : Ledger} {records : List Record} (h : ledger.Accepts records) :
  (ledger.applyAll records).revision = ledger.revision + records.length
  := by
  induction records generalizing ledger with
  | nil => rfl
  | cons record records ih =>
    obtain ⟨after, happly, hafter⟩ := accepts_cons.1 h
    rw [applyAll_cons_of_ok happly, ih hafter, revision_apply happly, List.length_cons]
    omega

/-- Plots that are given up join the queue of orphans in order. -/
theorem Distinct.orphans_applyAll {ledger : Ledger} (hd : ledger.Distinct)
    {records : List Record} (h : ledger.Accepts records) (hk : ∀ r ∈ records, r.kind = .orphan) :
  (ledger.applyAll records).orphans = ledger.orphans ++ records.map (·.place)
  := by
  induction records generalizing ledger with
  | nil => exact (List.append_nil _).symm
  | cons record records ih =>
    rw [List.forall_mem_cons] at hk
    obtain ⟨after, happly, hafter⟩ := accepts_cons.1 h
    rw [applyAll_cons_of_ok happly, ih (hd.apply happly) hafter hk.2, hd.orphans_apply happly,
      hk.1, List.append_assoc, List.singleton_append, List.map_cons]

/-- An assigned plot leaves the queue of orphans, also when the cursor is moved with the
assignment. -/
theorem Distinct.orphans_applyAll_assign {ledger : Ledger} (hd : ledger.Distinct) {place : Coord}
    {owner : Option String} {now : UInt64} {moves : List Record}
    (hmoves : ∀ r ∈ moves, r.kind = .advance)
    (h : ledger.Accepts (.assign place owner now :: moves)) :
  (ledger.applyAll (.assign place owner now :: moves)).orphans
    = ledger.orphans.filter (· ≠ place)
  := by
  obtain ⟨after, happly, -⟩ := accepts_cons.1 h
  have hmoved : (after.applyAll moves).Distinct
      ∧ (after.applyAll moves).orphans = after.orphans := by
    refine applyAll_induct (P := fun later => later.Distinct ∧ later.orphans = after.orphans)
      ⟨hd.apply happly, rfl⟩ ?_
    rintro before record later hmem ⟨hbefore, heq⟩ hlater
    refine ⟨hbefore.apply hlater, ?_⟩
    rw [hbefore.orphans_apply hlater, hmoves record hmem, heq]
  rw [applyAll_cons_of_ok happly, hmoved.2, hd.orphans_apply happly]
  rfl

end Ledger

end IslandPlots
