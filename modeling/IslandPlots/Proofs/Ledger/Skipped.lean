import IslandPlots.Proofs.Ledger.Replay
import Mathlib.Data.List.Induction

/-!
# Skipped lines

A replay skips a line when it shows no record or when its record is impossible where it stands
(`Ledger.Skip.Of`, `Ledger.mem_skips_replay`), which depends on all the lines before.  A skipped line
leaves no trace in the ledger: without the lines that are skipped a log replays to the same ledger,
the numbers of its reservations included, and none of the lines that are left is skipped
(`Ledger.replay_kept`).
-/

namespace IslandPlots

namespace Ledger

/-- The number of the line that was skipped. -/
def Skip.line : Skip → Nat
  | .unreadable number _ => number
  | .rejected number _ => number

namespace Skip.Of

variable {ledger : Ledger} {number : Nat} {line : String} {skip : Skip}

/-- A line is skipped with its number. -/
theorem line_eq (h : Of ledger number line skip) :
  skip.line = number
  := by
  cases h with
  | unreadable => rfl
  | rejected => rfl

/-- A line is skipped for one reason. -/
theorem unique {other : Skip} (h : Of ledger number line skip) (h' : Of ledger number line other) :
  skip = other
  := by
  cases h with
  | unreadable hparse =>
    cases h' with
    | unreadable hparse' =>
      cases hparse.symm.trans hparse'
      rfl
    | rejected hparse' => cases hparse.symm.trans hparse'
  | rejected hparse hrejected =>
    cases h' with
    | unreadable hparse' => cases hparse.symm.trans hparse'
    | rejected hparse' hrejected' =>
      cases hparse.symm.trans hparse'
      cases hrejected.symm.trans hrejected'
      rfl

end Skip.Of

/-- A line that shows a record which can be taken in is not skipped. -/
theorem not_skip_of_apply
    {ledger after : Ledger} {number : Nat} {line : String} {record : Record} {skip : Skip}
    (hparse : Record.parse line = .ok record) (happly : ledger.apply record = .ok after) :
  ¬ Skip.Of ledger number line skip
  := by
  intro h
  cases h with
  | unreadable hparse' => cases hparse.symm.trans hparse'
  | rejected hparse' hrejected =>
    cases hparse.symm.trans hparse'
    cases happly.symm.trans hrejected

/-- One more line adds the reason why it is skipped, if it is. -/
theorem mem_skips_step {before : Replay} {line : String} {skip : Skip} :
  skip ∈ (before.step line).skips
    ↔ skip ∈ before.skips ∨ Skip.Of before.ledger (before.lines + 1) line skip
  := by
  obtain ⟨new, hnew, hstep⟩ | ⟨record, after, hparse, happly, hstep⟩ := step_cases before line
  · rw [hstep, List.mem_append, List.mem_singleton]
    apply or_congr_right
    constructor
    · rintro rfl
      exact hnew
    · exact fun h => h.unique hnew
  · rw [hstep, or_iff_left (not_skip_of_apply hparse happly)]

/-- A replay goes on with the line that follows. -/
@[simp]
theorem replay_concat (lines : List String) (line : String) :
  replay (lines ++ [line]) = (replay lines).step line
  := by
  rw [replay, List.foldl_concat, ← replay]

/-- A replay reads every line. -/
@[simp]
theorem lines_replay (lines : List String) :
  (replay lines).lines = lines.length
  := by
  induction lines using List.reverseRecOn with
  | nil => rfl
  | append_singleton lines line ih =>
    rw [replay_concat, List.length_append, List.length_singleton, ← ih]
    obtain ⟨_, -, hstep⟩ | ⟨_, _, -, -, hstep⟩ := step_cases (replay lines) line <;> rw [hstep]

/-- The lines that a replay skips are those that the ledger of the lines before them skips. -/
theorem mem_skips_replay {lines : List String} {skip : Skip} :
  skip ∈ (replay lines).skips
    ↔ ∃ i line, lines[i]? = some line
      ∧ Skip.Of (replay (lines.take i)).ledger (i + 1) line skip
  := by
  induction lines using List.reverseRecOn with
  | nil =>
    constructor
    · nofun
    · rintro ⟨i, line, h, -⟩
      cases h
  | append_singleton lines line ih =>
    rw [replay_concat, mem_skips_step, ih, lines_replay]
    constructor
    · rintro (⟨i, before, hbefore, hskip⟩ | hskip)
      · obtain ⟨hlt, -⟩ := List.getElem?_eq_some_iff.1 hbefore
        use i, before
        rw [List.getElem?_append_left hlt, List.take_append_of_le_length (Nat.le_of_lt hlt)]
        exact ⟨hbefore, hskip⟩
      · use lines.length, line
        rw [List.getElem?_concat_length, List.take_left]
        exact ⟨rfl, hskip⟩
    · rintro ⟨i, found, hfound, hskip⟩
      rcases Nat.lt_or_ge i lines.length with hlt | hge
      · left
        use i, found
        rw [List.getElem?_append_left hlt] at hfound
        rw [List.take_append_of_le_length (Nat.le_of_lt hlt)] at hskip
        exact ⟨hfound, hskip⟩
      · right
        obtain rfl : i = lines.length := by
          obtain ⟨hlt, -⟩ := List.getElem?_eq_some_iff.1 hfound
          rw [List.length_append, List.length_singleton] at hlt
          omega
        rw [List.getElem?_concat_length] at hfound
        cases hfound
        rw [List.take_left] at hskip
        exact hskip

/-- Which lines are skipped. -/
theorem mem_skipped_iff {lines : List String} {i : Nat} {line : String}
    (h : lines[i]? = some line) :
  i + 1 ∈ (replay lines).skips.map Skip.line
    ↔ ∃ skip, Skip.Of (replay (lines.take i)).ledger (i + 1) line skip
  := by
  constructor
  · intro hmem
    obtain ⟨skip, hskip, hnumber⟩ := List.mem_map.1 hmem
    obtain ⟨j, other, hother, hof⟩ := mem_skips_replay.1 hskip
    obtain rfl : j = i := by
      have hline := hof.line_eq
      omega
    cases h.symm.trans hother
    exact ⟨skip, hof⟩
  · rintro ⟨skip, hof⟩
    rw [← hof.line_eq]
    apply List.mem_map_of_mem
    exact mem_skips_replay.2 ⟨i, line, h, hof⟩

/-! ### Without the skipped lines -/

/-- The lines of a log that a replay does not skip. -/
def kept (lines : List String) : List String :=
  ((lines.zipIdx 1).filter fun (_, number) =>
    number ∉ (replay lines).skips.map Skip.line).map Prod.fst

/-- Whether a line is skipped does not depend on the line that follows. -/
theorem mem_skipped_concat
    {lines : List String} {i : Nat} (h : i < lines.length) (line : String) :
  i + 1 ∈ (replay (lines ++ [line])).skips.map Skip.line
    ↔ i + 1 ∈ (replay lines).skips.map Skip.line
  := by
  have hline : lines[i]? = some lines[i] := List.getElem?_eq_getElem h
  have hconcat : (lines ++ [line])[i]? = some lines[i] := by
    rw [List.getElem?_append_left h, hline]
  rw [mem_skipped_iff hline, mem_skipped_iff hconcat,
    List.take_append_of_le_length (Nat.le_of_lt h)]

/-- The line that follows is kept unless it is skipped. -/
theorem kept_concat (lines : List String) (line : String) :
  kept (lines ++ [line])
    = kept lines
      ++ if lines.length + 1 ∈ (replay (lines ++ [line])).skips.map Skip.line then [] else [line]
  := by
  rw [kept, List.zipIdx_append, List.filter_append, List.map_append, List.zipIdx_singleton,
    Nat.add_comm 1, kept]
  congr 1
  · congr 1
    apply List.filter_congr
    intro ⟨before, number⟩ hbefore
    obtain ⟨hpos, hfound⟩ := List.mk_mem_zipIdx_iff_le_and_getElem?_sub.1 hbefore
    obtain ⟨hlt, -⟩ := List.getElem?_eq_some_iff.1 hfound
    obtain ⟨i, rfl⟩ : ∃ i, number = i + 1 := Nat.exists_eq_add_of_le' hpos
    apply decide_eq_decide.2
    apply not_congr
    apply mem_skipped_concat hlt
  · by_cases hskipped : lines.length + 1 ∈ (replay (lines ++ [line])).skips.map Skip.line
    · rw [if_pos hskipped, List.filter_cons_of_neg (by simpa using hskipped)]
      rfl
    · rw [if_neg hskipped, List.filter_cons_of_pos (by simpa using hskipped)]
      rfl

/-- Without the lines that it skips a log replays to the same ledger, and no line is skipped. -/
theorem replay_kept (lines : List String) :
  replay (kept lines)
    = { ledger := (replay lines).ledger, skips := [], lines := (kept lines).length }
  := by
  induction lines using List.reverseRecOn with
  | nil => rfl
  | append_singleton lines line ih =>
    have hlast : (lines ++ [line])[lines.length]? = some line := List.getElem?_concat_length
    have hskipped := mem_skipped_iff hlast
    rw [List.take_left] at hskipped
    rw [kept_concat]
    obtain ⟨skip, hskip, hstep⟩ | ⟨record, after, hparse, happly, hstep⟩ :=
      step_cases (replay lines) line
    · rw [lines_replay] at hskip
      rw [if_pos (hskipped.2 ⟨skip, hskip⟩), List.append_nil, ih, replay_concat, hstep]
    · have hnone : lines.length + 1 ∉ (replay (lines ++ [line])).skips.map Skip.line := by
        rw [hskipped]
        rintro ⟨skip, hskip⟩
        exact not_skip_of_apply hparse happly hskip
      rw [if_neg hnone, replay_concat, ih, replay_concat, hstep, List.length_append,
        List.length_singleton]
      exact step_of_apply hparse happly

/-- Every line is kept or skipped. -/
theorem length_kept (lines : List String) :
  (kept lines).length + (replay lines).skips.length = lines.length
  := by
  have hkept := revision_replay (kept lines)
  rw [replay_kept] at hkept
  rw [← hkept]
  exact revision_replay lines

end Ledger

end IslandPlots
