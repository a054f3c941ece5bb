import IslandPlots.Allocator.Open
import IslandPlots.Proofs.Allocator.Coherent
import IslandPlots.Proofs.Config

/-!
# Runs of an allocator

The calls of all callers follow one another, in the order in which the lock lets them in.
Between two calls something can befall the journal, and the allocator can be opened anew
under another configuration.  Every step leaves a coherent allocator coherent
(`Allocator.Coherent.step`), and so does a run.
-/

namespace IslandPlots

open LawfulJournal (Sound Stuck Clean held)

/-- The allocator of a journal under given settings. -/
def Allocator.ofJournal {J : Type} [Journal J] [LawfulJournal J] (settings : Settings)
    (journal : J) : Allocator J where
  settings := settings
  store := Store.ofJournal journal
  pool := Pool.ofLedger (Store.ofJournal journal).ledger settings.exclusion

/-- Loading a journal in working order gives the allocator of the journal. -/
theorem Allocator.load_eq
    {J : Type} [Journal J] [LawfulJournal J] {directory : String} {journal : J}
    (h : Sound directory journal) (settings : Settings) :
  ∃ notices, load settings journal = .ok (ofJournal settings journal, notices)
  := by
  unfold load
  rw [Store.load_eq h]
  exact ⟨_, rfl⟩

/-- The allocator of a journal that holds records which can be taken in. -/
theorem Allocator.ofJournal_of_held
    {J : Type} [Journal J] [LawfulJournal J] {journal : J} {records : List Record}
    (hheld : held journal = records.map Record.line) (hbuilt : ∀ r ∈ records, r.Built)
    (haccepts : ({} : Ledger).Accepts records) (settings : Settings) :
  ofJournal settings journal
    = { settings
        store := { journal, ledger := ({} : Ledger).applyAll records }
        pool := Pool.ofLedger (({} : Ledger).applyAll records) settings.exclusion }
  := by
  have hreplay := @Ledger.foldl_step_of_accepts {} records hbuilt haccepts
  rw [ofJournal, Store.ofJournal, hheld, Ledger.replay, hreplay]
  rfl

/-- The allocator of a journal in working order is coherent. -/
theorem Allocator.coherent_ofJournal
    {J : Type} [Journal J] [LawfulJournal J] {settings : Settings} {journal : J}
    (h : Sound settings.storageDir journal) :
  (ofJournal settings journal).Coherent
  := ⟨Store.consistent_ofJournal h, rfl, rfl⟩

/-! ### Opening anew -/

/-- The allocator of a journal can be opened, and opened anew; if that fails the old one
stays. -/
class ReopenableJournal (J : Type) [Journal J] [LawfulJournal J] where
  /-- An allocator as it is when it has been opened under a configuration. -/
  Started : Config → Allocator J → Prop
  /-- Opens an allocator anew under a configuration. -/
  reopen : Allocator J → Config → Outcome Failure (Allocator J) Unit
  /-- The journal as it is when it is opened anew. -/
  fresh : J → J
  /-- Opening the journal anew would disarm something that befell it. -/
  Pending : J → Prop
  sound_fresh : ∀ {directory : String} {journal : J},
    Sound directory journal → Sound directory (fresh journal)
  held_fresh : ∀ {journal : J}, held (fresh journal) = held journal
  clean_fresh : ∀ {journal : J}, Clean (fresh journal)
  fresh_eq : ∀ {directory : String} {journal : J},
    Sound directory journal → Clean journal → ¬ Pending journal → fresh journal = journal
  valid_of_started : ∀ {config : Config} {a : Allocator J},
    Started config a → config.validate = .ok a.settings
  coherent_of_started : ∀ {config : Config} {a : Allocator J},
    Started config a → a.Coherent ∧ Clean a.store.journal
  reopen_of_ok : ∀ {a : Allocator J} {config : Config} {settings : Settings},
    Sound config.storageDir a.store.journal → config.validate = .ok settings →
      (reopen a config).result = .ok ()
        ∧ (reopen a config).state = .ofJournal settings (fresh a.store.journal)
  reopen_of_error : ∀ {a : Allocator J} {config : Config} {failure : Failure},
    config.validate = .error failure →
      (reopen a config).result = .error failure ∧ (reopen a config).state = a

/-- An allocator that was opened on a journal in memory, which holds any lines. -/
def MemoryJournal.Started (config : Config) (a : Allocator MemoryJournal) : Prop :=
  ∃ journal settings notices, config.validate = .ok settings
    ∧ Allocator.load settings journal = .ok (a, notices)

/-- An allocator that was opened on a disk, on which the log holds any bytes that do not end
with a carriage return. -/
def FileJournal.Started (config : Config) (a : Allocator FileJournal) : Prop :=
  ∃ disk after notices, disk.WellFormed
    ∧ Allocator.openFile disk config = (.ok (a, notices), after)
    ∧ Text.Terminable a.store.journal.content

/-- Opens an allocator anew on its journal in memory. -/
def MemoryJournal.reopen (a : Allocator MemoryJournal) (config : Config) :
    Outcome Failure (Allocator MemoryJournal) Unit :=
  match config.validate with
  | .error failure => .fail failure a
  | .ok settings =>
    match Allocator.load settings a.store.journal with
    | .error failure => .fail failure a
    | .ok (opened, notices) => .ok () opened notices

/-- Opens an allocator anew on its disk. -/
def FileJournal.reopen (a : Allocator FileJournal) (config : Config) :
    Outcome Failure (Allocator FileJournal) Unit :=
  match Allocator.openFile a.disk config with
  | (.error failure, disk) => .fail failure (a.onDisk disk)
  | (.ok (opened, notices), _) => .ok () opened notices

/-- A journal in memory stays what it is. -/
instance : ReopenableJournal MemoryJournal where
  Started := MemoryJournal.Started
  reopen := MemoryJournal.reopen
  fresh := id
  Pending _ := False
  sound_fresh := id
  held_fresh := rfl
  clean_fresh := trivial
  fresh_eq _ _ _ := rfl
  valid_of_started := by
    rintro config a ⟨journal, settings, notices, hvalid, hload⟩
    obtain ⟨notices', hload'⟩ := Allocator.load_eq (journal.sound "") settings
    cases hload.symm.trans hload'
    exact hvalid
  coherent_of_started := by
    rintro config a ⟨journal, settings, notices, hvalid, hload⟩
    obtain ⟨notices', hload'⟩ := Allocator.load_eq (journal.sound "") settings
    cases hload.symm.trans hload'
    exact ⟨Allocator.coherent_ofJournal trivial, trivial⟩
  reopen_of_ok := by
    intro a config settings h hvalid
    obtain ⟨notices, hload⟩ := Allocator.load_eq h settings
    unfold MemoryJournal.reopen
    rw [hvalid]
    simp only [hload]
    exact ⟨rfl, rfl⟩
  reopen_of_error := by
    intro a config failure hinvalid
    unfold MemoryJournal.reopen
    rw [hinvalid]
    exact ⟨rfl, rfl⟩

/-- Loading a linked journal gives the allocator of the lines in its file. -/
theorem FileJournal.Linked.load_eq
    {directory : String} {journal : FileJournal} (h : journal.Linked directory)
    (settings : Settings) :
  ∃ notices, Allocator.load settings journal = .ok (.ofJournal settings journal, notices)
  := by
  have hlines : Journal.lines journal = .ok (Text.readLines journal.content) := h.lines_eq
  unfold Allocator.load Store.load
  simp only [hlines]
  exact ⟨_, rfl⟩

/-- Under a valid configuration a linked journal is opened anew, which changes nothing on the
disk. -/
theorem FileJournal.Linked.openFile_eq
    {config : Config} {settings : Settings} (hvalid : config.validate = .ok settings)
    {journal : FileJournal} (h : journal.Linked settings.storageDir) :
  ∃ notices, Allocator.openFile journal.disk config
    = (.ok (.ofJournal settings journal.fresh, notices), journal.disk)
  := by
  obtain ⟨notices, hload⟩ := (h.of_same none none none).load_eq settings
  use notices
  unfold Allocator.openFile
  rw [hvalid]
  simp only [h.open_eq]
  exact congrArg (·, journal.disk) hload

/-- An allocator with a linked journal can be opened anew under a valid configuration. -/
theorem FileJournal.reopen_eq
    {a : Allocator FileJournal} {config : Config} (h : a.store.journal.Linked config.storageDir)
    {settings : Settings} (hvalid : config.validate = .ok settings) :
  ∃ notices, FileJournal.reopen a config
    = .ok () (.ofJournal settings a.store.journal.fresh) notices
  := by
  rw [← Config.storageDir_of_validate hvalid] at h
  obtain ⟨notices, hopened⟩ := h.openFile_eq hvalid
  use notices
  unfold FileJournal.reopen Allocator.disk
  rw [hopened]

/-- An allocator that was opened on a disk is that of a linked journal, whatever the file holds;
the device is not going to fail, and nothing is left of a failed append. -/
theorem Allocator.eq_of_openFile
    {disk after : Disk} (hwf : disk.WellFormed) {config : Config} {a : Allocator FileJournal}
    {notices : List Notice} (h : openFile disk config = (.ok (a, notices), after)) :
  ∃ settings journal, config.validate = .ok settings ∧ journal.Linked settings.storageDir
    ∧ journal.fresh = journal ∧ a = ofJournal settings journal
  := by
  unfold openFile at h
  rcases hvalid : config.validate with failure | settings
  · rw [hvalid] at h
    cases h
  rw [hvalid] at h
  simp only at h
  rcases hopen : FileJournal.open disk settings.storageDir with ⟨fault | journal, opened⟩
  · rw [hopen] at h
    cases h
  rw [hopen] at h
  obtain ⟨hload, -⟩ := Prod.mk.inj h
  obtain ⟨hlinked, hfresh⟩ := FileJournal.linked_of_open hwf hopen
  obtain ⟨notices', hload'⟩ := hlinked.load_eq settings
  cases hload.symm.trans hload'
  exact ⟨settings, journal, rfl, hlinked, hfresh, rfl⟩

/-- An allocator that was opened on a disk is the allocator of a journal in working order. -/
theorem FileJournal.eq_of_started
    {config : Config} {a : Allocator FileJournal} (h : FileJournal.Started config a) :
  ∃ settings journal, config.validate = .ok settings
    ∧ FileJournal.Sound settings.storageDir journal ∧ journal.fresh = journal
    ∧ a = .ofJournal settings journal
  := by
  obtain ⟨disk, after, notices, hwf, hopened, hterminable⟩ := h
  obtain ⟨settings, journal, hvalid, hlinked, hfresh, rfl⟩ :=
    Allocator.eq_of_openFile hwf hopened
  have hcalm : journal.mishap = none := (congrArg FileJournal.mishap hfresh).symm
  exact ⟨settings, journal, hvalid, hlinked.sound hterminable hcalm, hfresh, rfl⟩

/-- An allocator can be opened on a journal with given lines. -/
theorem FileJournal.started_holding
    {config : Config} {settings : Settings} (hvalid : config.validate = .ok settings)
    (hdirectory : config.storageDir = ".") {lines : List String}
    (hlines : ∀ line ∈ lines, Text.Unbroken line) :
  FileJournal.Started config (.ofJournal settings (.holding lines))
  := by
  have hsound := sound_holding hlines
  have hdirectory' := Config.storageDir_of_validate hvalid
  obtain ⟨notices, hload⟩ := Allocator.load_eq hsound.lawful settings
  refine ⟨(holding lines).disk, (holding lines).disk, notices, hsound.wellFormed, ?_,
    hsound.terminable⟩
  unfold Allocator.openFile
  rw [hvalid]
  simp only [hdirectory', hdirectory, open_holding hlines, hload]

/-- A journal in a file loses its remnant and the failure of the device that it would have
met. -/
instance : ReopenableJournal FileJournal where
  Started := FileJournal.Started
  reopen := FileJournal.reopen
  fresh := FileJournal.fresh
  Pending journal := journal.fault ≠ none
  sound_fresh := FileJournal.Sound.reopened
  held_fresh := rfl
  clean_fresh := ⟨rfl, nofun⟩
  fresh_eq := by
    rintro directory ⟨disk, path, location, handle, remnant, fault, mishap⟩ hsound ⟨rfl, -⟩ hpending
    obtain rfl : fault = none := not_not.1 hpending
    obtain rfl : mishap = none := FileJournal.Sound.calm hsound
    rfl
  valid_of_started := by
    intro config a h
    obtain ⟨settings, journal, hvalid, -, -, rfl⟩ := FileJournal.eq_of_started h
    exact hvalid
  coherent_of_started := by
    intro config a h
    obtain ⟨settings, journal, -, hsound, hfresh, rfl⟩ := FileJournal.eq_of_started h
    refine ⟨Allocator.coherent_ofJournal hsound, ?_⟩
    change FileJournal.Clean journal
    rw [← hfresh]
    exact ⟨rfl, nofun⟩
  reopen_of_ok := by
    intro a config settings h hvalid
    obtain ⟨notices, hreopen⟩ := FileJournal.reopen_eq (FileJournal.Sound.linked h) hvalid
    rw [hreopen]
    exact ⟨rfl, rfl⟩
  reopen_of_error := by
    intro a config failure hinvalid
    unfold FileJournal.reopen Allocator.openFile
    rw [hinvalid]
    exact ⟨rfl, rfl⟩

namespace Allocator

/-! ### Steps -/

/-- A call of an operation at a given time. -/
inductive Call where
  | allocate (name : String) (now : UInt64)
  | release (place : Coord) (now : UInt64)
  | compact (now : UInt64)
  | ownerOf (place : Coord)
  | isAssigned (place : Coord)
  | stats

/-- What a caller gets. -/
inductive Answer where
  | allocated (result : Except Failure Coord)
  | released (result : Except Failure Bool)
  | compacted (result : Except Failure Nat)
  | owner (result : Except Failure (Option String))
  | assigned (result : Except Failure Bool)
  | counted (result : Except Failure Stats)

/-- A step of a run. -/
inductive Event (J : Type) [Journal J] [LawfulJournal J] [HazardousJournal J] where
  | call (call : Call)
  /-- Something befalls the journal. -/
  | hazard (hazard : HazardousJournal.Hazard J)
  /-- The allocator is opened anew. -/
  | reopen (spacing radius : Blocks)

variable {J : Type} [Journal J] [LawfulJournal J]

/-- The answer to a call, and the allocator after it. -/
def answer (a : Allocator J) : Call → Answer × Allocator J
  | .allocate name now =>
    let done := a.allocate name now
    (.allocated done.result, done.state)
  | .release place now =>
    let done := a.release place now
    (.released done.result, done.state)
  | .compact now =>
    let done := a.compact now
    (.compacted done.result, done.state)
  | .ownerOf place => (.owner (a.ownerOf place), a)
  | .isAssigned place => (.assigned (a.isAssigned place), a)
  | .stats => (.counted a.stats, a)

omit [LawfulJournal J] in
/-- A call leaves the allocator, or it appends records that assign a plot that may be handed
out, give up the plot that is to be released or move the cursor to a plot of the spiral, or it
compacts the journal. -/
theorem Pooled.answer_cases
    {a : Allocator J} (h : a.Pooled) (call : Call) :
  (a.answer call).2 = a
    ∨ (∃ records : List Record, (∀ r ∈ records, r.Built)
      ∧ (∀ r ∈ records, r.kind = .advance ∨ a.isFree r.place = true
        ∨ ∃ now, call = .release r.place now)
      ∧ (∀ r ∈ records, r.kind = .advance → a.choose.1 = .extend r.place)
      ∧ (a.answer call).2 = a.withStore (a.store.appendAll records).state)
    ∨ ∃ now, (a.answer call).2 = a.withStore (a.store.compact now).state
  := by
  cases call with
  | allocate name now =>
    rcases h.allocate_cases name now with
      ⟨-, -, -, hstate⟩ | ⟨place, moves, -, hfree, hmoves, hextend, -, hstate⟩
    · exact .inl hstate
    · right
      left
      refine ⟨_, ?_, ?_, ?_, hstate⟩ <;> rw [List.forall_mem_cons]
      · exact ⟨.assign .., fun r hr => (hmoves r hr).1⟩
      · exact ⟨.inr (.inl hfree), fun r hr => .inl (hmoves r hr).2⟩
      · exact ⟨nofun, fun r hr _ => hextend r hr⟩
  | release place now =>
    rcases h.release_cases place now with ⟨-, -, hstate⟩ | ⟨-, -, hstate⟩
    · exact .inl hstate
    · right
      left
      refine ⟨_, ?_, ?_, ?_, hstate⟩ <;> rw [List.forall_mem_singleton]
      · exact .orphan ..
      · exact .inr (.inr ⟨now, rfl⟩)
      · nofun
  | compact now => exact .inr (.inr ⟨now, (h.compact_eq now).2⟩)
  | ownerOf | isAssigned | stats => exact .inl rfl

/-- A call keeps the settings and leaves a clean journal clean. -/
theorem Coherent.clean_answer
    {a : Allocator J} (h : a.Coherent) (hclean : Clean a.store.journal) (call : Call) :
  (a.answer call).2.settings = a.settings ∧ Clean (a.answer call).2.store.journal
  := by
  have hsound := h.consistent.sound
  rcases h.pooled.answer_cases call with hstate | ⟨records, -, -, -, hstate⟩ | ⟨now, hstate⟩
  · rw [hstate]
    exact ⟨rfl, hclean⟩
  · rw [hstate]
    exact ⟨rfl, Store.clean_appendAll hsound hclean records⟩
  · rw [hstate]
    exact ⟨rfl, Store.clean_compact hsound hclean now⟩

variable [ReopenableJournal J]

/-- Opens the allocator anew with another spacing and another radius. -/
def reopen (a : Allocator J) (spacing radius : Blocks) : Outcome Failure (Allocator J) Unit :=
  ReopenableJournal.reopen a { spacing, radius, storageDir := a.settings.storageDir }

/-- Opening a coherent allocator anew gives the allocator of its journal, or the
configuration is refused and nothing happens. -/
theorem Coherent.reopen_cases
    {a : Allocator J} (h : a.Coherent) (spacing radius : Blocks) :
  (∃ settings,
      ({ spacing, radius, storageDir := a.settings.storageDir } : Config).validate = .ok settings
      ∧ (a.reopen spacing radius).state
        = ofJournal settings (ReopenableJournal.fresh a.store.journal))
    ∨ (a.reopen spacing radius).state = a
  := by
  unfold reopen
  rcases hvalid : ({ spacing, radius, storageDir := a.settings.storageDir } : Config).validate
    with failure | settings
  · exact .inr (ReopenableJournal.reopen_of_error hvalid).2
  · exact .inl ⟨settings, rfl, (ReopenableJournal.reopen_of_ok h.consistent.sound hvalid).2⟩

variable [HazardousJournal J]

/-- The allocator after something has befallen its journal. -/
def befall (a : Allocator J) (hazard : HazardousJournal.Hazard J) : Allocator J :=
  { a with store := { a.store with journal := HazardousJournal.befall a.store.journal hazard } }

/-- The allocator after a step. -/
def step (a : Allocator J) : Event J → Allocator J
  | .call call => (a.answer call).2
  | .hazard hazard => a.befall hazard
  | .reopen spacing radius => (a.reopen spacing radius).state

/-- The allocator after a run. -/
def run (a : Allocator J) (events : List (Event J)) : Allocator J :=
  events.foldl step a

/-- The answers to the calls of a run. -/
def answers (a : Allocator J) : List (Event J) → List Answer
  | [] => []
  | .call call :: events => (a.answer call).1 :: answers (a.answer call).2 events
  | event :: events => answers (a.step event) events

/-- What each step of a run keeps is kept by the run, if it may look at where the steps
begin. -/
theorem run_induct
    {P : Allocator J → Prop} {a : Allocator J} {events : List (Event J)} (ha : P a)
    (hstep : ∀ before event after, events = before ++ event :: after → P (a.run before) →
      P ((a.run before).step event)) :
  P (a.run events)
  := by
  induction events generalizing a with
  | nil => exact ha
  | cons event events ih =>
    apply ih (hstep [] event events rfl ha)
    intro before other after heq
    exact hstep (event :: before) other after (by rw [heq, List.cons_append])

/-! ### Coherence -/

/-- A step leaves a coherent allocator coherent. -/
theorem Coherent.step
    {a : Allocator J} (h : a.Coherent) (event : Event J) :
  (a.step event).Coherent
  := by
  cases event with
  | call call =>
    change (a.answer call).2.Coherent
    rcases h.pooled.answer_cases call with hstate | ⟨records, hbuilt, -, -, hstate⟩ | ⟨now, hstate⟩
    · rw [hstate]
      exact h
    · rw [hstate]
      exact h.appendAll hbuilt
    · rw [hstate]
      exact h.withStore (h.consistent.of_compacted (Store.compacted h.consistent.sound now))
  | hazard hazard =>
    exact ⟨h.consistent.of_held_eq (HazardousJournal.sound_befall hazard h.consistent.sound)
      (HazardousJournal.stuck_befall hazard) (HazardousJournal.held_befall hazard), h.pool, h.alive⟩
  | reopen spacing radius =>
    change (a.reopen spacing radius).state.Coherent
    rcases h.reopen_cases spacing radius with ⟨settings, hvalid, hstate⟩ | hstate
    · rw [hstate]
      apply coherent_ofJournal
      rw [Config.storageDir_of_validate hvalid]
      exact ReopenableJournal.sound_fresh h.consistent.sound
    · rw [hstate]
      exact h

/-- A run leaves a coherent allocator coherent. -/
theorem Coherent.run
    {a : Allocator J} (h : a.Coherent) (events : List (Event J)) :
  (a.run events).Coherent
  := run_induct h fun _ event _ _ hbefore => hbefore.step event

end Allocator

end IslandPlots
