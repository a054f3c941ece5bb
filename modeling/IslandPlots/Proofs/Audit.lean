import IslandPlots.Audit
import IslandPlots.Proofs.Ledger.Balance
import IslandPlots.Proofs.Store.Writing

/-!
# The books of an audit

An audit looks at a log twice: it counts the lines one by one (`Audit.counts_foldl`), and it replays
them.  The two agree: the lines that are corrupt beyond those that cannot be read are the records
that the replay rejects, and what is left of the assignments and losses balances with the plots
that are held and the losses that were taken in (`Audit.ofLines_balanced`).
-/

namespace IslandPlots

namespace Audit

/-! ### Counting -/

/-- The number of records of a kind that an audit has counted. -/
def ofKind (audit : Audit) : Kind → Nat
  | .assign => audit.assigns
  | .orphan => audit.orphans
  | .advance => audit.advances

/-- An audit has counted lines. -/
structure Counts (audit : Audit) (lines : List String) : Prop where
  length : audit.lines = lines.length
  kinds : ∀ kind, audit.ofKind kind = countKind kind (Ledger.readable lines)
  unparsable : audit.unparsable.length = Ledger.unreadable lines

/-- A line that shows a record is counted under the kind of the record. -/
theorem ofKind_count {line : String} {record : Record} (h : Record.parse line = .ok record)
    (audit : Audit) (kind : Kind) :
  (audit.count line).ofKind kind = audit.ofKind kind + if record.kind = kind then 1 else 0
  := by
  rw [Audit.count, h]
  rcases hk : record.kind with _ | _ | _ <;> simp only [hk] <;> cases kind <;> rfl

/-- Every line is counted. -/
theorem lines_count (audit : Audit) (line : String) :
  (audit.count line).lines = audit.lines + 1
  := by
  unfold Audit.count
  rcases Record.parse line with defect | record
  · rfl
  · rcases hk : record.kind with _ | _ | _ <;> simp only [hk]

/-- A line that shows a record adds no failure. -/
theorem unparsable_count {line : String} {record : Record} (h : Record.parse line = .ok record)
    (audit : Audit) :
  (audit.count line).unparsable = audit.unparsable
  := by
  rw [Audit.count, h]
  rcases hk : record.kind with _ | _ | _ <;> simp only [hk]

/-- One more line is counted under its kind, or as one that shows no record. -/
theorem Counts.count {audit : Audit} {lines : List String} (h : Counts audit lines)
    (line : String) :
  Counts (audit.count line) (lines ++ [line])
  := by
  have hlength : (audit.count line).lines = (lines ++ [line]).length := by
    rw [lines_count, h.length, List.length_append, List.length_singleton]
  have hunreadable : Ledger.unreadable (lines ++ [line])
      = Ledger.unreadable lines + Ledger.unreadable [line] := List.countP_append
  have hshown (kind : Kind) : countKind kind (Ledger.readable (lines ++ [line]))
      = countKind kind (Ledger.readable lines) + countKind kind (Ledger.readable [line]) := by
    simp [countKind_append]
  rcases hparse : Record.parse line with defect | record
  · have hnone : Ledger.readable [line] = [] := by
      simp [hparse, Except.toOption, Ledger.readable]
    have hone : Ledger.unreadable [line] = 1 := by
      rw [Ledger.unreadable, List.countP_singleton, hparse]
      rfl
    refine ⟨hlength, fun kind => ?_, ?_⟩
    · rw [hshown, hnone, ← h.kinds, Audit.count, hparse]
      cases kind <;> rfl
    · rw [hunreadable, hone, ← h.unparsable, Audit.count, hparse]
      exact List.length_append
  · have hone : Ledger.readable [line] = [record] := by
      simp [hparse, Except.toOption, Ledger.readable]
    have hnone : Ledger.unreadable [line] = 0 := by
      rw [Ledger.unreadable, List.countP_singleton, hparse]
      rfl
    refine ⟨hlength, fun kind => ?_, ?_⟩
    · rw [hshown, hone, ofKind_count hparse, h.kinds, countKind_cons]
      exact congrArg _ (Nat.zero_add _).symm
    · rw [hunreadable, hnone, ← h.unparsable, unparsable_count hparse, Nat.add_zero]

/-- Counting the lines of a log. -/
theorem counts_foldl (lines : List String) :
  Counts (lines.foldl Audit.count {}) lines
  := by
  induction lines using List.reverseRecOn with
  | nil => exact ⟨rfl, fun kind => by cases kind <;> rfl, rfl⟩
  | append_singleton lines line ih =>
    rw [List.foldl_concat]
    exact ih.count line

/-! ### Balancing -/

/-- An audit succeeds for any lines. -/
theorem ofLines_eq (lines : List String) :
  ∃ notices, ofLines lines = .ok ({ lines.foldl Audit.count {} with
      corrupt := (Ledger.replay lines).skips.length
      assigned := (Ledger.replay lines).ledger.assignedCount
      orphaned := (Ledger.replay lines).ledger.orphanedCount }, notices)
  := by
  have hlines : Journal.lines ({ lines } : MemoryJournal) = .ok lines := rfl
  use Store.replayNotices (Journal.location ({ lines } : MemoryJournal)) (Ledger.replay lines)
  rw [ofLines, Store.load_of_lines hlines]
  rfl

/-- The books of an audit balance, for any lines whatever.  Each line is counted once, under the
kind of its record or as one that shows none; the latter are corrupt.  The plots that are held or
were given up are those that the assignments name, also the assignments that are rejected.  The
assignments and losses that are not rejected are as many as the plots that are held, and two for
each loss that was taken in, which takes back an assignment.  So without corrupt lines the plots
that are held are as many as the assignments less the losses. -/
theorem ofLines_balanced (lines : List String) :
  ∃ audit notices, ofLines lines = .ok (audit, notices)
    ∧ audit.lines = lines.length
    ∧ audit.lines = audit.assigns + audit.orphans + audit.advances + audit.unparsable.length
    ∧ audit.unparsable.length ≤ audit.corrupt
    ∧ audit.assigned + audit.orphaned
      = (Ledger.assignedBy (Ledger.readable lines)).toFinset.card
    ∧ (audit.assigns + audit.orphans : Int) - (audit.corrupt - audit.unparsable.length)
      = audit.assigned + 2 * countKind .orphan (({} : Ledger).taken (Ledger.readable lines))
    ∧ (audit.corrupt = 0 → (audit.assigned : Int) = audit.assigns - audit.orphans)
  := by
  obtain ⟨notices, hok⟩ := ofLines_eq lines
  obtain ⟨hlength, hkinds, hunparsable⟩ := counts_foldl lines
  have hassigns : (lines.foldl Audit.count {}).assigns = _ := hkinds .assign
  have horphans : (lines.foldl Audit.count {}).orphans = _ := hkinds .orphan
  have hadvances : (lines.foldl Audit.count {}).advances = _ := hkinds .advance
  have hskips := Ledger.length_skips_replay lines
  have hheld := Ledger.assignedCount_replay lines
  have hfewer (kind : Kind) : countKind kind (({} : Ledger).taken (Ledger.readable lines))
      ≤ countKind kind (Ledger.readable lines) :=
    (Ledger.taken_sublist {} (Ledger.readable lines)).countP_le
  have hassigned := hfewer .assign
  have horphaned := hfewer .orphan
  refine ⟨_, notices, hok, hlength, ?_, ?_, ?_, ?_, ?_⟩
  · change (lines.foldl Audit.count {}).lines = _
    have hall := Ledger.length_readable lines
    have hread := length_eq_countKind (Ledger.readable lines)
    dsimp only
    omega
  · dsimp only
    omega
  · have hplots := Ledger.card_assignedBy (Ledger.readable lines)
    rw [← Ledger.ledger_replay, Ledger.length_reservations, ← Ledger.orphanedCount_eq] at hplots
    exact hplots
  · dsimp only
    omega
  · intro hclean
    dsimp only at hclean ⊢
    omega

/-- A plot is assigned, given up and assigned again, and another is assigned; the cursor moves. -/
theorem ofLines_balanced_clean :
  let lines := ["1;10;0;ASSIGN;ann", "1;10;0;CURSOR_ADVANCE;", "2;10;0;ORPHAN;",
    "3;10;0;ASSIGN;bob", "4;20;0;ASSIGN;eve"]
  ∃ audit notices, ofLines lines = .ok (audit, notices) ∧ audit.corrupt = 0
    ∧ (audit.assigned : Int) = audit.assigns - audit.orphans
  := by
  intro lines
  obtain ⟨audit, notices, hok, -, -, -, -, -, hbalance⟩ := ofLines_balanced lines
  have hclean : audit.corrupt = 0 := by
    obtain ⟨_, hcounted⟩ := ofLines_eq lines
    cases hcounted.symm.trans hok
    decide +kernel
  exact ⟨audit, notices, hok, hclean, hbalance hclean⟩

end Audit

end IslandPlots
