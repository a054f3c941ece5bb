import IslandPlots.Proofs.Journal.File

/-!
# Files that others write to

Another program may add any bytes to the file of a journal, between two calls, and the device may
stop a write at any byte.  The name of the log goes on to lead to the file
(`FileJournal.Linked`), and nothing but a replacement takes away what stood in it before a call.
So every line that the journal has acknowledged stands in the file from then on, as a line of its
own (`FileJournal.acknowledged_lines_stand`).
-/

namespace IslandPlots

namespace FileJournal

/-! ### Writing to a linked journal -/

/-- An append to a linked journal leaves it linked. -/
theorem Linked.append
    {directory : String} {journal : FileJournal} (h : journal.Linked directory)
    (lines : List String) :
  (journal.append lines).state.Linked directory
  := by
  obtain ⟨bytes, remnant, fault, heq⟩ := journal.state_append lines
  rw [heq]
  exact (h.edit journal.handle bytes).of_same remnant fault journal.mishap

/-- Adding bytes to a file adds bytes to that of the journal, or none. -/
theorem Linked.content_write
    {directory : String} {journal : FileJournal} (h : journal.Linked directory) (number : Nat)
    (bytes : Text.Bytes) :
  ∃ more, (journal.disk.write number bytes).content journal.handle = journal.content ++ more
  := by
  by_cases hsame : number = journal.handle
  · subst hsame
    use bytes
    simp [Disk.write_eq_edit, h.handle_lt, FileJournal.content]
  · use []
    simp [Disk.write_eq_edit, hsame, FileJournal.content]

/-- An append is acknowledged and has added its lines to the file, finishing the line that stood
there unfinished; or it fails and has added some bytes, and none unless the journal is stuck
now. -/
theorem Linked.append_cases
    {directory : String} {journal : FileJournal} (h : journal.Linked directory)
    (lines : List String) :
  let written := journal.append lines
  (written.result = .ok ()
      ∧ written.state.content = journal.content ++ journal.newBytes lines)
    ∨ ∃ fault more, written.result = .error fault
      ∧ written.state.content = journal.content ++ more
      ∧ (written.state.remnant = journal.remnant → written.state.disk = journal.disk)
  := by
  rcases hremnant : journal.remnant with _ | remnant
  · have hcontent : ∀ more, (journal.disk.write journal.handle more).content journal.handle
        = journal.content ++ more := by
      intro more
      simp [Disk.write_eq_edit, h.handle_lt, FileJournal.content]
    rw [h.append_eq hremnant]
    unfold FileJournal.writeBytes
    rcases journal.fault with _ | ⟨keep, _ | _⟩
    · left
      exact ⟨rfl, hcontent _⟩
    · right
      have hundone := journal.disk.resize_write journal.handle
        ((journal.newBytes lines).take (min keep (journal.newBytes lines).length))
      refine ⟨_, [], rfl, ?_, fun _ => hundone⟩
      rw [List.append_nil]
      exact congrArg (Disk.content · journal.handle) hundone
    · right
      refine ⟨_, _, rfl, hcontent _, fun hsame => ?_⟩
      cases hsame
  · rw [append_of_remnant hremnant]
    right
    exact ⟨_, [], rfl, (List.append_nil _).symm, fun _ => rfl⟩

/-- An append is acknowledged if and only if the journal is not stuck, the device does not fail and
the last byte can be looked at. -/
theorem result_append_iff (journal : FileJournal) (lines : List String) :
  (journal.append lines).result = .ok ()
    ↔ journal.remnant = none ∧ journal.fault = none ∧ journal.isTorn.isOk
  := by
  unfold append
  rcases hremnant : journal.remnant with _ | remnant
  · rcases htorn : journal.isTorn with fault | torn
    · exact iff_of_false nofun nofun
    · unfold writeBytes
      rcases hfault : journal.fault with _ | ⟨keep, _ | _⟩
      · exact iff_of_true rfl ⟨rfl, rfl, rfl⟩
      · exact iff_of_false nofun nofun
      · exact iff_of_false nofun nofun
  · exact iff_of_false nofun nofun

/-- An append to a linked journal is acknowledged unless the journal is stuck or the device
fails. -/
theorem Linked.result_append
    {directory : String} {journal : FileJournal} (h : journal.Linked directory)
    (hremnant : journal.remnant = none) (hfault : journal.fault = none) (lines : List String) :
  (journal.append lines).result = .ok ()
  := by
  rw [result_append_iff, h.isTorn_eq]
  exact ⟨hremnant, hfault, rfl⟩

/-! ### What happens to a journal -/

/-- What happens to a journal and to the files beside it. -/
inductive Happening where
  | append (lines : List String)
  | replace (lines : List String)
  /-- Another program adds bytes at the end of a file, that of the journal perhaps. -/
  | write (number : Nat) (bytes : Text.Bytes)
  /-- The device will fail in the next append. -/
  | fault (fault : ShortWrite)
  /-- The journal is opened anew. -/
  | reopen

/-- The lines that the journal is to write. -/
def Happening.lines : Happening → List String
  | .append lines => lines
  | .replace lines => lines
  | _ => []

/-- The journal after it was to be opened anew; if that fails the old one stays. -/
def openAnew (journal : FileJournal) (directory : String) : FileJournal :=
  match FileJournal.open journal.disk directory with
  | (.ok opened, _) => opened
  | (.error _, disk) => { journal with disk := disk }

/-- A journal with the lines it answers for: those it has acknowledged since it was last replaced,
and before them those of the replacement. -/
structure Pledge where
  journal : FileJournal
  lines : List String := []

namespace Pledge

/-- What a journal answers for after something has happened. -/
def step (directory : String) (pledge : Pledge) : Happening → Pledge
  | .append lines =>
    let written := pledge.journal.append lines
    match written.result with
    | .ok () => { journal := written.state, lines := pledge.lines ++ lines }
    | .error _ => { pledge with journal := written.state }
  | .replace lines =>
    let written := pledge.journal.replace lines
    match written.result with
    | .ok () => { journal := written.state, lines := lines }
    | .error _ => { pledge with journal := written.state }
  | .write number bytes =>
    let journal := pledge.journal
    { pledge with journal := { journal with disk := journal.disk.write number bytes } }
  | .fault fault => { pledge with journal := { pledge.journal with fault := some fault } }
  | .reopen => { pledge with journal := pledge.journal.openAnew directory }

/-- What a journal answers for after several things have happened. -/
def run (directory : String) (pledge : Pledge) (happenings : List Happening) : Pledge :=
  happenings.foldl (step directory) pledge

/-- The name of the log leads to the file, the device will not fail in a replacement, and the lines
the journal answers for stand in the file. -/
structure Kept (directory : String) (pledge : Pledge) : Prop where
  linked : pledge.journal.Linked directory
  calm : pledge.journal.mishap = none
  standing : Text.StandIn pledge.lines pledge.journal.content

namespace Kept

variable {directory : String} {pledge : Pledge} (h : pledge.Kept directory)

include h

/-- A pledge is kept with a linked journal whose file holds further bytes. -/
theorem of_append
    {journal : FileJournal} (hlinked : journal.Linked directory) (hcalm : journal.mishap = none)
    {more : Text.Bytes} (hcontent : journal.content = pledge.journal.content ++ more) :
  Kept directory { pledge with journal := journal }
  := by
  use hlinked, hcalm
  change Text.StandIn pledge.lines journal.content
  rw [hcontent]
  apply h.standing.append_bytes

/-- A pledge stays kept whatever happens. -/
theorem step
    {happening : Happening} (hunbroken : ∀ line ∈ happening.lines, Text.Unbroken line) :
  (pledge.step directory happening).Kept directory
  := by
  cases happening with
  | append lines =>
    have hlinked := h.linked.append lines
    have hcalm := (pledge.journal.mishap_append lines).trans h.calm
    unfold Pledge.step
    rcases h.linked.append_cases lines with ⟨hresult, hcontent⟩ | ⟨fault, more, hresult, hcontent, -⟩
    · simp only [hresult]
      use hlinked, hcalm
      change Text.StandIn (pledge.lines ++ lines) (pledge.journal.append lines).state.content
      rw [hcontent]
      exact h.standing.append_lines hunbroken
    · simp only [hresult]
      exact h.of_append hlinked hcalm hcontent
  | replace lines =>
    unfold Pledge.step
    rcases h.linked.based.replace_cases h.calm lines with
      ⟨disk, handle, hreplace, hplaced⟩ | ⟨cause, -, hreplace⟩
    · simp only [hreplace, Outcome.ok]
      use h.linked.based.linked_of_placed hplaced none _, h.calm
      change Text.StandIn lines (disk.content handle)
      rw [hplaced.content]
      exact Text.standIn_writeLines hunbroken
    · simp only [hreplace, Outcome.fail]
      exact h
  | write number bytes =>
    obtain ⟨more, hcontent⟩ := h.linked.content_write number bytes
    exact h.of_append (h.linked.edit number _) h.calm hcontent
  | fault fault =>
    exact h.of_append (h.linked.of_same _ (some fault) _) h.calm (List.append_nil _).symm
  | reopen =>
    have hopened : pledge.journal.openAnew directory = pledge.journal.fresh := by
      rw [openAnew, h.linked.open_eq]
    unfold Pledge.step
    rw [hopened]
    exact h.of_append (h.linked.of_same none none none) rfl (List.append_nil _).symm

/-- A pledge stays kept in a run. -/
theorem run
    {happenings : List Happening}
    (hunbroken : ∀ happening ∈ happenings, ∀ line ∈ happening.lines, Text.Unbroken line) :
  (pledge.run directory happenings).Kept directory
  := by
  induction happenings generalizing pledge with
  | nil => exact h
  | cons happening happenings ih =>
    rw [List.forall_mem_cons] at hunbroken
    exact ih (h.step hunbroken.1) hunbroken.2

end Kept

/-- A journal that was opened answers for nothing. -/
theorem kept_of_open
    {disk after : Disk} (hwf : disk.WellFormed) {directory : String} {journal : FileJournal}
    (hopen : FileJournal.open disk directory = (.ok journal, after)) :
  Kept directory { journal }
  := by
  obtain ⟨hlinked, hfresh⟩ := linked_of_open hwf hopen
  exact ⟨hlinked, (congrArg FileJournal.mishap hfresh).symm, Text.standIn_nil _⟩

end Pledge

/-- Acknowledged lines survive as whole lines.  Whatever the file holds when the journal is
opened, whatever other programs add to it between two calls, however often an append is cut short
at any byte, cut back or left as it is, and however often the journal is opened anew or replaced:
the journal can be read, and the lines it has acknowledged since it was last replaced stand in the
file after those of the replacement, each finished and with just its text, in the order in which
they were acknowledged.  An append that fails without leaving bytes behind changes no byte on the
disk; and an append fails only if an earlier one has left bytes behind or the device fails. -/
theorem acknowledged_lines_stand
    {disk after : Disk} (hwf : disk.WellFormed) {directory : String} {journal : FileJournal}
    (hopen : FileJournal.open disk directory = (.ok journal, after)) {happenings : List Happening}
    (hunbroken : ∀ happening ∈ happenings, ∀ line ∈ happening.lines, Text.Unbroken line) :
  let pledge := ({ journal } : Pledge).run directory happenings
  (pledge.journal.lines = .ok (Text.readLines pledge.journal.content)
      ∧ pledge.lines.Sublist (Text.readLines pledge.journal.content)
      ∧ Text.StandIn pledge.lines pledge.journal.content)
    ∧ (∀ lines fault, let written := pledge.journal.append lines
        written.result = .error fault → written.state.remnant = pledge.journal.remnant →
        written.state.disk = pledge.journal.disk)
    ∧ ∀ lines, pledge.journal.remnant = none → pledge.journal.fault = none →
      (pledge.journal.append lines).result = .ok ()
  := by
  intro pledge
  have hkept : pledge.Kept directory := (Pledge.kept_of_open hwf hopen).run hunbroken
  refine ⟨⟨hkept.linked.lines_eq, hkept.standing.sublist, hkept.standing⟩, ?_, ?_⟩
  · intro lines fault written herror hremnant
    rcases hkept.linked.append_cases lines with ⟨hresult, -⟩ | ⟨_, _, -, -, hundone⟩
    · cases hresult.symm.trans herror
    · exact hundone hremnant
  · intro lines hremnant hfault
    exact hkept.linked.result_append hremnant hfault lines

/-- Two lines that were acknowledged stand in the file although it held half a character at first,
somebody else added a part of another one, and nine bytes of a record were left behind. -/
theorem acknowledged_lines_stand_torn :
  let journal : FileJournal := { holding [] with disk := (holding []).disk.edit 0 [0x31, 0xC3] }
  let happenings : List Happening := [.append ["1;10;0;ASSIGN;ann"], .write 0 [0xE2, 0x82],
    .fault ⟨9, true⟩, .append ["2;10;0;ORPHAN;"], .reopen, .append ["3;0;10;ASSIGN;"]]
  let pledge := ({ journal } : Pledge).run "." happenings
  FileJournal.open journal.disk "." = (.ok journal, journal.disk)
    ∧ (∀ happening ∈ happenings, ∀ line ∈ happening.lines, Text.Unbroken line)
    ∧ pledge.lines = ["1;10;0;ASSIGN;ann", "3;0;10;ASSIGN;"]
    ∧ pledge.lines.Sublist (Text.readLines pledge.journal.content)
  := by
  intro journal happenings pledge
  have hlinked : journal.Linked "." := (sound_holding (by simp)).linked.edit 0 [0x31, 0xC3]
  have hunbroken : ∀ happening ∈ happenings, ∀ line ∈ happening.lines, Text.Unbroken line := by
    decide +kernel
  obtain ⟨⟨-, hsublist, -⟩, -⟩ :=
    acknowledged_lines_stand hlinked.wellFormed hlinked.open_eq hunbroken
  have hlines : pledge.lines = ["1;10;0;ASSIGN;ann", "3;0;10;ASSIGN;"] := by
    decide +kernel
  exact ⟨hlinked.open_eq, hunbroken, hlines, hsublist⟩

end FileJournal

end IslandPlots
