import IslandPlots.Proofs.Journal.Sharing

/-!
# Appends extend the log

An acknowledged append adds its lines after those that stood in the file, whatever bytes these are
and whether the last line was finished or not, so a replay goes on where it had ended before.  The
one exception is an unfinished line that ends with a carriage return: the line feed that finishes
it takes the carriage return from it, and then this line is another one
(`FileJournal.append_extends`).
-/

namespace IslandPlots

namespace FileJournal

/-- The lines of a linked journal after an acknowledged append. -/
theorem Linked.lines_append
    {directory : String} {journal : FileJournal} (h : journal.Linked directory)
    {lines : List String} (hresult : (journal.append lines).result = .ok ()) :
  (journal.append lines).state.lines
    = .ok (Text.readLines (journal.content ++ journal.newBytes lines))
  := by
  rw [(h.append lines).lines_eq]
  rcases h.append_cases lines with ⟨-, hcontent⟩ | ⟨fault, -, herror, -⟩
  · rw [hcontent]
  · cases hresult.symm.trans herror

/-- Appending is a pure extension of the log, unless an unfinished line ends with a carriage
return.  Whatever the file holds when the journal is opened, whatever other programs add to it
before the append, and whatever has happened to the journal: when lines are appended and the append
is acknowledged, just these lines are read after the old ones if and only if the bytes of the file
did not end with a carriage return.  Then a replay of the new lines is that of the old ones, gone
on with.  Otherwise all lines but the last are read as before, the last has lost its carriage
return, and the replay goes on after that line as it is now. -/
theorem append_extends
    {disk after : Disk} (hwf : disk.WellFormed) {directory : String} {opened : FileJournal}
    (hopen : FileJournal.open disk directory = (.ok opened, after)) {happenings : List Happening}
    (hunbroken : ∀ happening ∈ happenings, ∀ line ∈ happening.lines, Text.Unbroken line)
    {lines : List String} (hlines : ∀ line ∈ lines, Text.Unbroken line) :
  let journal := (({ journal := opened } : Pledge).run directory happenings).journal
  let written := journal.append lines
  written.result = .ok () →
  ∃ old new, journal.lines = .ok old ∧ written.state.lines = .ok new
    ∧ (new = old ++ lines ↔ Text.Terminable journal.content)
    ∧ (Text.Terminable journal.content →
      Ledger.replay new = lines.foldl Ledger.Replay.step (Ledger.replay old))
    ∧ (¬ Text.Terminable journal.content →
      ∃ front last, old = front ++ [last ++ "\r"] ∧ new = front ++ last :: lines
        ∧ Ledger.replay old = (Ledger.replay front).step (last ++ "\r")
        ∧ Ledger.replay new
          = lines.foldl Ledger.Replay.step ((Ledger.replay front).step last))
  := by
  intro journal written hresult
  have hlinked : journal.Linked directory :=
    ((Pledge.kept_of_open hwf hopen).run hunbroken).linked
  have hread := Text.readLines_writeLines hlines
  refine ⟨_, _, hlinked.lines_eq, hlinked.lines_append hresult, ?_⟩
  rw [newBytes, ← List.append_assoc]
  by_cases hterminable : Text.Terminable journal.content
  · rw [Text.readLines_append_ending hterminable, hread]
    refine ⟨iff_of_true rfl hterminable, fun _ => ?_, fun hnot => absurd hterminable hnot⟩
    rw [Ledger.replay, List.foldl_append]
    rfl
  · obtain ⟨front, last, hold, hnew⟩ := Text.readLines_append_of_not_terminable hterminable
    rw [hold, hnew, hread]
    have hlast : last ≠ last ++ "\r" := by
      intro heq
      have hlength := congrArg String.length heq
      rw [String.length_append, show "\r".length = 1 from rfl] at hlength
      omega
    refine ⟨iff_of_false ?_ hterminable, fun h => absurd h hterminable, fun _ => ?_⟩
    · intro heq
      rw [List.append_assoc] at heq
      exact hlast (List.cons.inj (List.append_cancel_left heq)).1
    · use front, last
      refine ⟨rfl, rfl, ?_, ?_⟩
      · rw [Ledger.replay, List.foldl_append]
        rfl
      · rw [Ledger.replay, List.foldl_append]
        rfl

/-- Lines are added after a line that another program has left unfinished, within a character, and
this line goes on to be read as it was. -/
theorem append_extends_torn :
  let opened := holding ["1;10;0;ASSIGN;ann"]
  let happenings : List Happening := [.write 0 [0x32, 0x3B, 0xC3]]
  let journal := (({ journal := opened } : Pledge).run "." happenings).journal
  let lines := ["3;20;0;ASSIGN;bob", "3;20;0;CURSOR_ADVANCE;"]
  FileJournal.open opened.disk "." = (.ok opened, opened.disk)
    ∧ (journal.append lines).result = .ok ()
    ∧ journal.lines = .ok ["1;10;0;ASSIGN;ann", "2;\uFFFD"]
    ∧ (journal.append lines).state.lines = .ok (["1;10;0;ASSIGN;ann", "2;\uFFFD"] ++ lines)
  := by
  intro opened happenings journal lines
  have hsound : opened.Sound "." := sound_holding (by decide +kernel)
  have hlinked : journal.Linked "." := hsound.linked.edit 0 _
  have hunbroken : ∀ happening ∈ happenings, ∀ line ∈ happening.lines, Text.Unbroken line := by
    decide +kernel
  have hlines : ∀ line ∈ lines, Text.Unbroken line := by
    decide +kernel
  have hresult : (journal.append lines).result = .ok () := hlinked.result_append rfl rfl lines
  have hterminable : Text.Terminable journal.content := by
    decide +kernel
  have hread : Text.readLines journal.content = ["1;10;0;ASSIGN;ann", "2;\uFFFD"] := by
    decide +kernel
  obtain ⟨old, new, hold, hnew, hsame, -⟩ :=
    append_extends hsound.wellFormed hsound.open_eq hunbroken hlines hresult
  obtain rfl : _ = old := hread.symm.trans (Except.ok.inj (hlinked.lines_eq.symm.trans hold))
  rw [hsame.2 hterminable] at hnew
  exact ⟨hsound.open_eq, hresult, hold, hnew⟩

/-- A record that gives up a plot is not read while its line is unfinished and ends with a carriage
return, and somebody holds the plot.  When another record has been appended, it is read, and nobody
holds the plot. -/
theorem append_revives_line :
  let bytes := Text.encodeString "1;10;0;ASSIGN;ann\n2;10;0;ORPHAN;\r"
  let journal : FileJournal := { holding [] with disk := (holding []).disk.edit 0 bytes }
  let lines := ["3;0;10;ASSIGN;bob"]
  let old := ["1;10;0;ASSIGN;ann", "2;10;0;ORPHAN;\r"]
  let new := ["1;10;0;ASSIGN;ann", "2;10;0;ORPHAN;", "3;0;10;ASSIGN;bob"]
  let place : Coord := ⟨10, 0, by decide, by decide⟩
  FileJournal.open journal.disk "." = (.ok journal, journal.disk)
    ∧ (∀ line ∈ lines, Text.Unbroken line) ∧ (journal.append lines).result = .ok ()
    ∧ journal.lines = .ok old ∧ (journal.append lines).state.lines = .ok new
    ∧ new ≠ old ++ lines
    ∧ (Ledger.replay (old ++ lines)).ledger.standing? place = some .assigned
    ∧ (Ledger.replay new).ledger.standing? place = some .orphaned
  := by
  intro bytes journal lines old new place
  have hlinked : journal.Linked "." := (sound_holding (by simp)).linked.edit 0 bytes
  have hresult : (journal.append lines).result = .ok () := hlinked.result_append rfl rfl lines
  have hold : Text.readLines journal.content = old := by
    decide +kernel
  have hnew : Text.readLines (journal.content ++ journal.newBytes lines) = new := by
    decide +kernel
  refine ⟨hlinked.open_eq, by decide +kernel, hresult, ?_, ?_, ?_⟩
  · rw [hlinked.lines_eq, hold]
  · rw [hlinked.lines_append hresult, hnew]
  · decide +kernel

end FileJournal

end IslandPlots
