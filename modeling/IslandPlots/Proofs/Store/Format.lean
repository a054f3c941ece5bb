import IslandPlots.Journal.File
import IslandPlots.Proofs.Record.Torn
import IslandPlots.Proofs.Store.Writing

/-!
# The format of the log

A log of records that were built shows just these records (`Record.read_written`): the separators
of a line are those between its fields, no line is broken, and no owner's name is mistaken for
something else, whatever the name is.
-/

namespace IslandPlots

namespace Record

/-- The owner field of a record holds no separator. -/
theorem count_ownerField (r : Record) :
  r.ownerField.count fieldSeparator = 0
  := by
  rw [List.count_eq_zero]
  intro hmem
  exact (mem_ownerField hmem).1 rfl

/-- The line of a record holds four separators. -/
theorem count_line (r : Record) :
  r.line.toList.count fieldSeparator = 4
  := by
  obtain ⟨front, hhead, hfront⟩ := r.head_eq_append
  rw [toList_line, hhead, List.count_append, List.count_append, hfront, count_ownerField,
    List.count_singleton_self]

/-- The lines of records that were built show the records. -/
theorem map_parse_map_line {records : List Record} (h : ∀ r ∈ records, r.Built) :
  (records.map line).map parse = records.map .ok
  := by
  rw [List.map_map]
  apply List.map_congr_left
  intro r hr
  simp [h r hr]

/-- The log format loses nothing.  The line of a record that was built, whatever its time, its
place and the name of its owner, holds exactly four separators and no character that ends a line.
When the lines of such records are written, each followed by a line feed, the bytes are read back
as exactly as many lines, and these show the records in order; so does a file with these bytes. -/
theorem read_written {records : List Record} (h : ∀ r ∈ records, r.Built) :
  let bytes := Text.writeLines (records.map line)
  (∀ r ∈ records, r.line.toList.count fieldSeparator = 4
      ∧ '\n' ∉ r.line.toList ∧ '\r' ∉ r.line.toList)
    ∧ (Text.readLines bytes).map parse = records.map .ok
    ∧ ∀ (disk : Disk) (path : String) (place : Location), disk.read place = .ok bytes →
      (FileJournal.readFile disk path place).map (·.map parse) = .ok (records.map .ok)
  := by
  intro bytes
  have hread : (Text.readLines bytes).map parse = records.map .ok := by
    rw [Text.readLines_writeLines (Store.unbroken_map_line records)]
    exact map_parse_map_line h
  refine ⟨?_, hread, ?_⟩
  · intro r _
    exact ⟨r.count_line, r.unbroken_line⟩
  · intro disk path place hfile
    rw [FileJournal.readFile, hfile, ← hread]
    rfl

/-- Records whose owners are called like lines of the log, by blanks or by nothing are read back,
at the limits of times and coordinates too. -/
theorem read_written_names :
  let place : Coord := ⟨-2147483648, 2147483647, by decide, by decide⟩
  let records : List Record := [.assign place (some "a;b\\n\r\n9;0;0;ORPHAN;") 18446744073709551615,
    .assign place (some " \u00a0\\") 0, .assign place (some "") 1, .orphan place 2, .advance place 3]
  (∀ r ∈ records, r.Built)
    ∧ (Text.readLines (Text.writeLines (records.map line))).map parse = records.map .ok
  := by
  intro place records
  have hbuilt : ∀ r ∈ records, r.Built := by
    simp only [records, List.forall_mem_cons]
    exact ⟨.assign .., .assign .., .assign .., .orphan .., .advance .., List.forall_mem_nil _⟩
  exact ⟨hbuilt, (read_written hbuilt).2.1⟩

end Record

end IslandPlots
