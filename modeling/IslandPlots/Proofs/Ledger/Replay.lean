import IslandPlots.Proofs.Ledger.Batch
import IslandPlots.Proofs.Record.RoundTrip

/-!
# Replaying lines

One more line is either skipped, for a reason that it has (`Ledger.Skip.Of`), or taken in
(`Ledger.step_cases`).  So a replay takes in the records that its lines show
(`Ledger.readable`), and what is known of a batch of records is known of a log.  No line of a
batch that can be taken in is skipped (`Ledger.foldl_step_of_accepts`).
-/

namespace IslandPlots

namespace Ledger

/-- The records that lines show. -/
def readable (lines : List String) : List Record :=
  lines.filterMap fun line => (Record.parse line).toOption

/-- The first of several lines shows at most one record. -/
@[simp]
theorem readable_cons (line : String) (lines : List String) :
  readable (line :: lines) = (Record.parse line).toOption.toList ++ readable lines
  := by
  unfold readable
  rw [List.filterMap_cons]
  cases (Record.parse line).toOption <;> rfl

/-- The records that lines and others after them show. -/
@[simp]
theorem readable_append (xs ys : List String) :
  readable (xs ++ ys) = readable xs ++ readable ys
  := List.filterMap_append

/-- The number of lines that show no record. -/
def unreadable (lines : List String) : Nat :=
  lines.countP fun line => (Record.parse line).toOption.isNone

/-- Every line shows a record or is unreadable. -/
theorem length_readable (lines : List String) :
  (readable lines).length + unreadable lines = lines.length
  := by
  rw [readable, List.length_filterMap_eq_countP, unreadable,
    List.length_eq_countP_add_countP fun line => (Record.parse line).toOption.isSome]
  congr 2
  funext line
  rcases (Record.parse line).toOption with _ | r <;> rfl

/-- Every record that lines show could have been built. -/
theorem built_readable {lines : List String} {r : Record} (h : r ∈ readable lines) :
  r.Built
  := by
  obtain ⟨line, -, hread⟩ := List.mem_filterMap.1 h
  rcases hparse : Record.parse line with defect | shown
  · rw [hparse] at hread
    cases hread
  · rw [hparse] at hread
    cases hread
    exact Record.built_of_parse hparse

/-- The written lines of records show the records. -/
@[simp]
theorem readable_map_line {records : List Record} (h : ∀ r ∈ records, r.Built) :
  readable (records.map Record.line) = records
  := by
  induction records with
  | nil => rfl
  | cons record records ih =>
    rw [List.forall_mem_cons] at h
    rw [List.map_cons, readable_cons, Record.parse_line h.1, ih h.2]
    rfl

/-! ### One more line -/

/-- Why a ledger skips the line with a given number. -/
inductive Skip.Of (ledger : Ledger) (number : Nat) (line : String) : Skip → Prop where
  /-- The line shows no record. -/
  | unreadable {defect : Record.Defect} (h : Record.parse line = .error defect) :
    Of ledger number line (.unreadable number defect)
  /-- The record that the line shows is impossible. -/
  | rejected {record : Record} {rejection : Rejection} (h : Record.parse line = .ok record)
    (hrejected : ledger.apply record = .error rejection) :
    Of ledger number line (.rejected number rejection)

section

variable {before : Replay} {line : String}

/-- A line that is skipped leaves the ledger as it is. -/
theorem step_of_skip {skip : Skip} (h : Skip.Of before.ledger (before.lines + 1) line skip) :
  before.step line = { before with skips := before.skips ++ [skip], lines := before.lines + 1 }
  := by
  cases h with
  | unreadable hparse => rw [Replay.step, hparse]
  | rejected hparse hrejected =>
    rw [Replay.step, hparse]
    simp only [hrejected]

/-- A record that is possible is taken in. -/
theorem step_of_apply {record : Record} {after : Ledger} (hparse : Record.parse line = .ok record)
    (happly : before.ledger.apply record = .ok after) :
  before.step line = { before with ledger := after, lines := before.lines + 1 }
  := by
  rw [Replay.step, hparse]
  simp only [happly]

end

/-- One more line is skipped, and the ledger stays as it is, or the record that it shows is taken
in. -/
theorem step_cases (before : Replay) (line : String) :
  (∃ skip, Skip.Of before.ledger (before.lines + 1) line skip ∧ before.step line
      = { before with skips := before.skips ++ [skip], lines := before.lines + 1 })
    ∨ (∃ record after, Record.parse line = .ok record ∧ before.ledger.apply record = .ok after
      ∧ before.step line = { before with ledger := after, lines := before.lines + 1 })
  := by
  rcases hparse : Record.parse line with defect | record
  · exact .inl ⟨_, .unreadable hparse, step_of_skip (.unreadable hparse)⟩
  · rcases happly : before.ledger.apply record with rejection | after
    · exact .inl ⟨_, .rejected hparse happly, step_of_skip (.rejected hparse happly)⟩
    · exact .inr ⟨record, after, rfl, happly, step_of_apply hparse happly⟩

/-- A ledger takes in nothing of a line that it skips. -/
theorem applyAll_of_skip
    {ledger : Ledger} {number : Nat} {skip : Skip} (h : Skip.Of ledger number line skip) :
  ledger.applyAll (Record.parse line).toOption.toList = ledger
  := by
  cases h with
  | unreadable hparse =>
    rw [hparse]
    rfl
  | rejected hparse hrejected =>
    rw [hparse]
    exact applyAll_cons_of_error hrejected []

/-- One more line takes in the record it shows, if it shows one. -/
theorem ledger_step (before : Replay) (line : String) :
  (before.step line).ledger = before.ledger.applyAll (Record.parse line).toOption.toList
  := by
  obtain ⟨skip, hskip, hstep⟩ | ⟨record, after, hparse, happly, hstep⟩ := step_cases before line
  · rw [hstep, applyAll_of_skip hskip]
  · rw [hstep, hparse]
    exact (applyAll_cons_of_ok happly []).symm

/-- One more line is taken in or skipped. -/
theorem revision_step (before : Replay) (line : String) :
  (before.step line).ledger.revision + (before.step line).skips.length
    = before.ledger.revision + before.skips.length + 1
  := by
  obtain ⟨skip, -, hstep⟩ | ⟨record, after, -, happly, hstep⟩ := step_cases before line
  · simp only [hstep, List.length_append, List.length_singleton]
    omega
  · simp only [hstep, revision_apply happly]
    omega

/-! ### Whole logs -/

/-- Further lines take in the records they show. -/
theorem ledger_foldl_step (before : Replay) (lines : List String) :
  (lines.foldl Replay.step before).ledger = before.ledger.applyAll (readable lines)
  := by
  induction lines generalizing before with
  | nil => rfl
  | cons line lines ih =>
    simp [ih, ledger_step]

/-- A replay takes in the records that the lines show. -/
theorem ledger_replay (lines : List String) :
  (replay lines).ledger = ({} : Ledger).applyAll (readable lines)
  := ledger_foldl_step {} lines

/-- A replay that goes on takes in the records of the further lines. -/
theorem ledger_replay_append (xs ys : List String) :
  (replay (xs ++ ys)).ledger = (replay xs).ledger.applyAll (readable ys)
  := by
  simp [ledger_replay]

/-- A replay leaves one reservation for each plot. -/
theorem distinct_replay (lines : List String) :
  (replay lines).ledger.Distinct
  := by
  rw [ledger_replay]
  exact (distinct_of_nil rfl).applyAll _

/-- Further lines are taken in or skipped. -/
theorem revision_foldl_step (before : Replay) (lines : List String) :
  (lines.foldl Replay.step before).ledger.revision
      + (lines.foldl Replay.step before).skips.length
    = before.ledger.revision + before.skips.length + lines.length
  := by
  induction lines generalizing before with
  | nil => rfl
  | cons line lines ih =>
    rw [List.foldl_cons, ih, revision_step, List.length_cons]
    omega

/-- Every line of a log is taken in or skipped. -/
theorem revision_replay (lines : List String) :
  (replay lines).ledger.revision + (replay lines).skips.length = lines.length
  := (revision_foldl_step {} lines).trans (Nat.zero_add _)

/-- None of the lines of records that can be taken in is skipped. -/
theorem foldl_step_of_accepts
    {before : Replay} {records : List Record} (hbuilt : ∀ r ∈ records, r.Built)
    (h : before.ledger.Accepts records) :
  (records.map Record.line).foldl Replay.step before
    = { ledger := before.ledger.applyAll records, skips := before.skips,
        lines := before.lines + records.length }
  := by
  induction records generalizing before with
  | nil => rfl
  | cons record records ih =>
    rw [List.forall_mem_cons] at hbuilt
    obtain ⟨after, happly, hafter⟩ := accepts_cons.1 h
    have hstep : before.step record.line
        = { before with ledger := after, lines := before.lines + 1 } :=
      step_of_apply (Record.parse_line hbuilt.1) happly
    rw [List.map_cons, List.foldl_cons, hstep, ih hbuilt.2 hafter, applyAll_cons_of_ok happly,
      List.length_cons, Nat.add_comm records.length, ← Nat.add_assoc]

/-- Appending the lines of records that can be taken in takes them in, and skips no
line more. -/
theorem replay_append_of_accepts
    {lines : List String} {records : List Record} (hbuilt : ∀ r ∈ records, r.Built)
    (h : (replay lines).ledger.Accepts records) :
  replay (lines ++ records.map Record.line)
    = { ledger := (replay lines).ledger.applyAll records, skips := (replay lines).skips,
        lines := (replay lines).lines + records.length }
  := by
  rw [replay, List.foldl_append]
  exact foldl_step_of_accepts hbuilt h

end Ledger

end IslandPlots
