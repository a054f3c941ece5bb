import IslandPlots.Proofs.Ledger.Replay
import IslandPlots.Proofs.Record.Misread

/-!
# Torn batches

Of a batch whose writing stopped after `k` bytes the lines show `Record.tornAll`.  That is a
beginning of the batch, except when the last record that is there is misread
(`Record.tornAll_eq_take_iff`); then its plot is held by an owner whom the record does not
name (`Ledger.misled_of_cutsOwner`).
-/

namespace IslandPlots

/-! ### The records that are found -/

namespace Record

/-- The records that the first `k` bytes of the lines of records show: those whose lines
are finished, and what there is of the next one. -/
def tornAll : List Record → Nat → List Record
  | [], _ => []
  | r :: records, k =>
    let size := (Text.encodeString r.line).length
    if size < k then r :: tornAll records (k - (size + 1)) else (r.torn k).toList

/-- Torn lines show torn records. -/
theorem readable_torn {records : List Record} (h : ∀ r ∈ records, r.Built) (k : Nat) :
  Ledger.readable (Text.torn (records.map line) k) = tornAll records k
  := by
  induction records generalizing k with
  | nil => rfl
  | cons r records ih =>
    rw [List.forall_mem_cons] at h
    rw [List.map_cons, Text.torn, tornAll]
    split_ifs with hsize hzero
    · simp [h.1, ih h.2, Except.toOption]
    · have hpos : 0 < r.headSize := by
        rw [headSize, List.length_pos_iff, head]
        simp
      rw [hzero, torn_of_lt hpos]
      rfl
    · rw [Ledger.readable_cons, torn]
      exact List.append_nil _

/-- A torn batch changes plots in the way of the records that were to be written. -/
theorem mem_tornAll {records : List Record} {found : Record} {k : Nat}
    (h : found ∈ tornAll records k) :
  ∃ r ∈ records, found.kind = r.kind ∧ found.place = r.place
  := by
  induction records generalizing k with
  | nil => cases h
  | cons r records ih =>
    rw [tornAll] at h
    split_ifs at h
    · rcases List.mem_cons.1 h with rfl | h
      · exact ⟨found, List.mem_cons_self, rfl, rfl⟩
      · obtain ⟨other, hmem, heq⟩ := ih h
        exact ⟨other, List.mem_cons_of_mem _ hmem, heq⟩
    · obtain ⟨-, hplace, hkind⟩ := eq_of_torn (Option.mem_toList.1 h)
      exact ⟨r, List.mem_cons_self, hkind, hplace⟩

/-- The writing of the lines of records stops after `k` bytes in an owner field, so that the
record of that line is misread. -/
def CutsOwner (records : List Record) (k : Nat) : Prop :=
  ∃ before r after n, records = before ++ r :: after
    ∧ k = (Text.writeLines (before.map line)).length + n ∧ r.Misread n

/-- A record that is misread is not complete. -/
theorem Misread.lt_length
    {r : Record} {k : Nat} (h : r.Misread k) :
  k < (Text.encodeString r.line).length
  := by
  obtain ⟨name, hkind, howner, -, hsize, -⟩ := h
  rw [length_line, ownerField_assign hkind howner]
  exact hsize

/-- The number of bytes of a line and of the lines after it. -/
theorem length_writeLines_cons (r : Record) (records : List Record) :
  (Text.writeLines ((r :: records).map line)).length
    = (Text.encodeString r.line).length + 1 + (Text.writeLines (records.map line)).length
  := by
  rw [List.map_cons, Text.writeLines_cons, List.length_append, List.length_cons]
  omega

/-- A cut behind the first line is one in the lines after it. -/
theorem cutsOwner_cons_of_lt
    {r : Record} {k : Nat} (h : (Text.encodeString r.line).length < k) (records : List Record) :
  CutsOwner (r :: records) k
    ↔ CutsOwner records (k - ((Text.encodeString r.line).length + 1))
  := by
  constructor
  · rintro ⟨before, cut, after, n, hrecords, rfl, hmisread⟩
    rcases before with _ | ⟨first, before⟩
    · cases hrecords
      have := hmisread.lt_length
      rw [List.map_nil, show (Text.writeLines []).length = 0 from rfl] at h
      omega
    · cases hrecords
      refine ⟨before, cut, after, n, rfl, ?_, hmisread⟩
      rw [length_writeLines_cons]
      omega
  · rintro ⟨before, cut, after, n, rfl, hk, hmisread⟩
    refine ⟨r :: before, cut, after, n, rfl, ?_, hmisread⟩
    rw [length_writeLines_cons]
    omega

/-- A cut in the first line is one in the first record. -/
theorem cutsOwner_cons_of_le
    {r : Record} {k : Nat} (h : k ≤ (Text.encodeString r.line).length) (records : List Record) :
  CutsOwner (r :: records) k ↔ r.Misread k
  := by
  constructor
  · rintro ⟨before, cut, after, n, hrecords, rfl, hmisread⟩
    rcases before with _ | ⟨first, before⟩
    · cases hrecords
      rw [List.map_nil, show (Text.writeLines []).length = 0 from rfl, Nat.zero_add]
      exact hmisread
    · cases hrecords
      rw [length_writeLines_cons] at h
      omega
  · intro hmisread
    exact ⟨[], r, records, k, rfl, (Nat.zero_add k).symm, hmisread⟩

/-- If the cut is in no owner, a torn batch shows a beginning of the batch. -/
theorem tornAll_of_not_cutsOwner
    {records : List Record} (hbuilt : ∀ r ∈ records, r.Built) {k : Nat}
    (h : ¬ CutsOwner records k) :
  ∃ j, tornAll records k = records.take j
  := by
  induction records generalizing k with
  | nil => exact ⟨0, rfl⟩
  | cons r records ih =>
    rw [List.forall_mem_cons] at hbuilt
    rw [tornAll]
    by_cases hsize : (Text.encodeString r.line).length < k
    · rw [cutsOwner_cons_of_lt hsize] at h
      obtain ⟨j, hj⟩ := ih hbuilt.2 h
      simp only [if_pos hsize, hj]
      exact ⟨j + 1, rfl⟩
    · rw [cutsOwner_cons_of_le (Nat.not_lt.1 hsize)] at h
      simp only [if_neg hsize]
      rcases torn_of_not_misread hbuilt.1 h with hnone | hsome
      · rw [hnone]
        exact ⟨0, rfl⟩
      · rw [hsome]
        exact ⟨1, rfl⟩

/-- If the cut is in an owner, a torn batch shows the records before it and another one. -/
theorem tornAll_of_misread
    {before : List Record} {r : Record} {n : Nat} (h : r.Misread n) (after : List Record) :
  tornAll (before ++ r :: after) ((Text.writeLines (before.map line)).length + n)
    = before ++ (r.torn n).toList
  := by
  induction before with
  | nil =>
    rw [List.nil_append, List.nil_append, List.map_nil,
      show (Text.writeLines []).length = 0 from rfl, Nat.zero_add, tornAll]
    exact if_neg (Nat.lt_asymm h.lt_length)
  | cons first before ih =>
    rw [List.cons_append, tornAll, length_writeLines_cons, if_pos (by omega), List.cons_append,
      ← ih]
    congr 2
    omega

/-- If the cut is in an owner, the last record that a torn batch shows is an assignment to
someone else. -/
theorem tornAll_of_cutsOwner
    {records : List Record} {k : Nat} (h : CutsOwner records k) :
  ∃ before r after name left, records = before ++ r :: after ∧ r.kind = .assign
    ∧ r.owner = some name ∧ Owner.Fragment name.toList left ∧ Owner.ofChars left ≠ r.owner
    ∧ tornAll records k = before ++ [{ r with owner := Owner.ofChars left }]
  := by
  obtain ⟨before, r, after, n, rfl, rfl, hmisread⟩ := h
  obtain ⟨name, left, hname, hfragment, howner, htorn⟩ := torn_of_misread hmisread
  obtain ⟨-, hkind, -⟩ := id hmisread
  refine ⟨before, r, after, name, left, rfl, hkind, hname, hfragment, howner, ?_⟩
  rw [tornAll_of_misread hmisread, htorn]
  rfl

/-- A torn batch shows a beginning of the batch exactly when the cut is in no owner. -/
theorem tornAll_eq_take_iff
    {records : List Record} (hbuilt : ∀ r ∈ records, r.Built) {k : Nat} :
  (∃ j, tornAll records k = records.take j) ↔ ¬ CutsOwner records k
  := by
  constructor
  · rintro ⟨j, hj⟩ hcuts
    obtain ⟨before, r, after, name, left, rfl, -, -, -, howner, htorn⟩ :=
      tornAll_of_cutsOwner hcuts
    have hprefix := hj.symm.trans htorn ▸ List.take_prefix j (before ++ r :: after)
    rw [List.prefix_append_right_inj, List.cons_prefix_cons] at hprefix
    exact howner (congrArg owner hprefix.1)
  · exact tornAll_of_not_cutsOwner hbuilt

end Record

/-! ### The plot of a misread record -/

namespace Ledger

section

variable {ledger : Ledger} {before after : List Record} {r : Record}
  (haccepts : ledger.Accepts (before ++ r :: after)) (hkind : r.kind = .assign)

include haccepts hkind

/-- The plot of an assignment has no holder before it. -/
theorem standing?_before_assign :
  (ledger.applyAll before).standing? r.place ≠ some .assigned
  := by
  obtain ⟨-, hafter⟩ := accepts_append.1 haccepts
  obtain ⟨next, happly, -⟩ := accepts_cons.1 hafter
  rcases apply_cases happly with ⟨hadvance, -⟩ | ⟨-, hallows, -⟩
  · rw [hkind] at hadvance
    cases hadvance
  · rw [hkind] at hallows
    exact allows_assign.1 hallows

/-- The plot of an assignment can be assigned to any owner. -/
theorem accepts_assign_other (owner : Option String) :
  ledger.Accepts (before ++ [{ r with owner := owner }])
  := by
  have hallows : allows ((ledger.applyAll before).standing? r.place) r.kind = true := by
    rw [hkind]
    exact allows_assign.2 (standing?_before_assign haccepts hkind)
  obtain ⟨next, happly⟩ := @exists_apply _ { r with owner := owner } hallows
  obtain ⟨hbefore, -⟩ := accepts_append.1 haccepts
  exact accepts_append.2 ⟨hbefore, accepts_cons.2 ⟨next, happly, rfl⟩⟩

/-- The plot of an assignment is then held by that owner. -/
theorem tenure?_assign_other (owner : Option String) :
  (ledger.applyAll (before ++ [{ r with owner := owner }])).tenure? r.place
    = some ⟨.assigned, owner, r.stamp⟩
  := by
  obtain ⟨-, hone⟩ := accepts_append.1 (accepts_assign_other haccepts hkind owner)
  have htenure : Record.tenure { r with owner := owner } = ⟨.assigned, owner, r.stamp⟩ := by
    simp only [Record.tenure, hkind, if_pos]
  rw [applyAll_append, ← htenure]
  apply tenure?_applyAll_cons hone _ (by simp)
  simp [hkind]

/-- No beginning of a batch amounts to the same ledger as the records before an assignment
and the assignment to another owner. -/
theorem applyAll_take_ne
    {owner : Option String} (howner : owner ≠ r.owner) (j : Nat) :
  ledger.applyAll ((before ++ r :: after).take j)
    ≠ ledger.applyAll (before ++ [{ r with owner := owner }])
  := by
  intro heq
  -- The ledgers have taken in as many records, so the beginning ends with the assignment.
  have hrevision := congrArg revision heq
  rw [revision_applyAll (haccepts.take j),
    revision_applyAll (accepts_assign_other haccepts hkind owner), List.length_take,
    List.length_append, List.length_append, List.length_cons, List.length_singleton] at hrevision
  have hmin : min j (before ++ r :: after).length
      = min (before.length + 1) (before ++ r :: after).length := by
    rw [List.length_append, List.length_cons]
    omega
  have htenure := tenure?_assign_other haccepts hkind owner
  rw [← heq, List.take_eq_take_iff.2 hmin, List.take_length_add_append, List.take_succ_cons,
    List.take_zero, tenure?_assign_other haccepts hkind r.owner] at htenure
  exact howner (congrArg Tenure.owner (Option.some.inj htenure)).symm

/-- No beginning of a batch assigns the plot of a record to an owner other than that of the
record, if the others are about other plots. -/
theorem tenure?_take_ne
    (hother : ∀ other ∈ before ++ after, other.kind = .advance ∨ other.place ≠ r.place)
    {owner : Option String} (howner : owner ≠ r.owner) (j : Nat) :
  (ledger.applyAll ((before ++ r :: after).take j)).tenure? r.place
    ≠ some ⟨.assigned, owner, r.stamp⟩
  := by
  rw [List.forall_mem_append] at hother
  obtain ⟨hbefore, hafter⟩ := hother
  rcases Nat.lt_or_ge before.length j with hj | hj
  · obtain ⟨m, rfl⟩ : ∃ m, j = before.length + (m + 1) := ⟨j - before.length - 1, by omega⟩
    obtain ⟨-, hrest⟩ := accepts_append.1 haccepts
    have htake : (ledger.applyAll before).Accepts (r :: after.take m) := hrest.take (m + 1)
    rw [List.take_length_add_append, List.take_succ_cons, applyAll_append,
      tenure?_applyAll_cons htake (by simp [hkind])
        fun other hmem => hafter other (List.mem_of_mem_take hmem)]
    intro heq
    apply howner
    have := congrArg Tenure.owner (Option.some.inj heq)
    simpa [Record.tenure, hkind] using this.symm
  · rw [List.take_append_of_le_length hj,
      tenure?_applyAll_of_forall fun other hmem => hbefore other (List.mem_of_mem_take hmem)]
    intro hheld
    apply standing?_before_assign haccepts hkind
    rw [standing?_eq, tenure?_applyAll_of_forall hbefore, hheld]
    rfl

end

/-- In `recovered` the plot of an assignment is held by an owner other than the one it names,
of whose name only a fragment is left.  No beginning of the records leads to that, unless
others of them are about the plot. -/
def Misled (ledger : Ledger) (records : List Record) (recovered : Ledger) : Prop :=
  ∃ before r after name left, records = before ++ r :: after ∧ r.owner = some name
    ∧ Owner.Fragment name.toList left ∧ Owner.ofChars left ≠ some name
    ∧ recovered.tenure? r.place = some ⟨.assigned, Owner.ofChars left, r.stamp⟩
    ∧ ((∀ other ∈ before ++ after, other.kind = .advance ∨ other.place ≠ r.place) →
      ∀ j, (ledger.applyAll (records.take j)).tenure? r.place ≠ recovered.tenure? r.place)

section

variable {ledger : Ledger} {records : List Record} (haccepts : ledger.Accepts records) {k : Nat}

include haccepts

/-- A torn batch misleads if the cut is in an owner. -/
theorem misled_of_cutsOwner (h : Record.CutsOwner records k) :
  ledger.Misled records (ledger.applyAll (Record.tornAll records k))
  := by
  obtain ⟨before, r, after, name, left, rfl, hkind, hname, hfragment, howner, htorn⟩ :=
    Record.tornAll_of_cutsOwner h
  have htenure := tenure?_assign_other haccepts hkind (Owner.ofChars left)
  rw [htorn]
  refine ⟨before, r, after, name, left, rfl, hname, hfragment, hname ▸ howner, htenure,
    fun hother j => ?_⟩
  rw [htenure]
  exact tenure?_take_ne haccepts hkind hother howner j

/-- A torn batch amounts to a beginning of the batch exactly when the cut is in no owner. -/
theorem applyAll_tornAll_iff (hbuilt : ∀ r ∈ records, r.Built) :
  (∃ j, ledger.applyAll (Record.tornAll records k) = ledger.applyAll (records.take j))
    ↔ ¬ Record.CutsOwner records k
  := by
  constructor
  · rintro ⟨j, hj⟩ hcuts
    obtain ⟨before, r, after, name, left, rfl, hkind, -, -, howner, htorn⟩ :=
      Record.tornAll_of_cutsOwner hcuts
    rw [htorn] at hj
    exact applyAll_take_ne haccepts hkind howner j hj.symm
  · intro hcuts
    obtain ⟨j, hj⟩ := Record.tornAll_of_not_cutsOwner hbuilt hcuts
    exact ⟨j, congrArg ledger.applyAll hj⟩

end

end Ledger

end IslandPlots
