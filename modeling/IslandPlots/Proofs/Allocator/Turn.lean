import IslandPlots.Proofs.Allocator.Erasure
import IslandPlots.Proofs.Journal.Detached

/-!
# Runs in which compactions fail

In such a run the device can fail in a compaction as well, before the new log is put in the place of
the old one or after that.  In the second case the compaction fails although the log has been
replaced, and the journal goes on to write to the old one (`FallibleJournal.Detached`), until a
compaction succeeds or the allocator is opened anew (`Allocator.Turn.Heals`).

How a compaction ends follows from how its replacement of the journal ends, whether the device fails
in it or not (`Allocator.Compaction`).
-/

namespace IslandPlots

open LawfulJournal (Sound Stuck held)

/-- A journal in which the device can fail when it is replaced. -/
class FallibleJournal (J : Type) [Journal J] [LawfulJournal J] [ReopenableJournal J]
    [HazardousJournal J] where
  /-- How the device can fail. -/
  Mishap : Type
  /-- The journal whose replacement the device will let fail. -/
  strike : J → Mishap → J
  /-- The journal when this is over. -/
  calm : J → J
  /-- The journal was replaced, but it writes to what it was before. -/
  Detached : String → J → Prop
  replace_struck : ∀ {directory : String} {journal : J} {lines : List String} (mishap : Mishap),
    Sound directory journal → (∀ line ∈ lines, Text.Unbroken line) →
    ∀ {written : Outcome JournalFault J Unit},
      Journal.replace (strike journal mishap) lines = written →
      (written.result = .ok () ∧ Sound directory (calm written.state)
          ∧ ¬ Stuck (calm written.state) ∧ held (calm written.state) = lines)
        ∨ (∃ fault, written.result = .error fault ∧ Sound directory (calm written.state)
          ∧ (Stuck (calm written.state) ↔ Stuck journal)
          ∧ held (calm written.state) = held journal)
        ∨ ∃ fault, written.result = .error fault ∧ Detached directory (calm written.state)
  detached_append : ∀ {directory : String} {journal : J} {lines : List String},
    Detached directory journal → Detached directory (Journal.append journal lines).state
  detached_befall : ∀ {directory : String} {journal : J} (hazard : HazardousJournal.Hazard J),
    Detached directory journal → Detached directory (HazardousJournal.befall journal hazard)
  detached_replace : ∀ {directory : String} {journal : J} {lines : List String},
    Detached directory journal → (∀ line ∈ lines, Text.Unbroken line) →
    ∀ {written : Outcome JournalFault J Unit}, Journal.replace journal lines = written →
      (written.result = .ok () ∧ Sound directory written.state ∧ ¬ Stuck written.state
          ∧ held written.state = lines)
        ∨ ∃ fault, written.result = .error fault ∧ Detached directory written.state
  detached_replace_struck : ∀ {directory : String} {journal : J} {lines : List String}
    (mishap : Mishap), Detached directory journal → (∀ line ∈ lines, Text.Unbroken line) →
    ∀ {written : Outcome JournalFault J Unit},
      Journal.replace (strike journal mishap) lines = written →
      (written.result = .ok () ∧ Sound directory (calm written.state)
          ∧ ¬ Stuck (calm written.state) ∧ held (calm written.state) = lines)
        ∨ ∃ fault, written.result = .error fault ∧ Detached directory (calm written.state)
  detached_reopen : ∀ {a : Allocator J} {config : Config} {settings : Settings},
    Detached config.storageDir a.store.journal → config.validate = .ok settings →
      ∃ journal, Sound config.storageDir journal ∧ ¬ Stuck journal
        ∧ (ReopenableJournal.reopen a config).result = .ok ()
        ∧ (ReopenableJournal.reopen a config).state = .ofJournal settings journal

/-- No device fails under a journal in memory. -/
instance : FallibleJournal MemoryJournal where
  Mishap := Empty
  strike _ := nofun
  calm := id
  Detached _ _ := False
  replace_struck := nofun
  detached_append := id
  detached_befall _ := id
  detached_replace := nofun
  detached_replace_struck := nofun
  detached_reopen := nofun

namespace FileJournal

/-- An allocator whose name of the log leads to some file is opened anew on that file. -/
theorem Named.reopen_eq
    {a : Allocator FileJournal} {config : Config} {number : Nat}
    (h : a.store.journal.Named config.storageDir number) {settings : Settings}
    (hvalid : config.validate = .ok settings) :
  ∃ notices, FileJournal.reopen a config
    = .ok () (.ofJournal settings ({ a.store.journal with handle := number } : FileJournal).fresh)
      notices
  := by
  rw [← Config.storageDir_of_validate hvalid] at h
  obtain ⟨notices, hopened⟩ := h.linked.openFile_eq hvalid
  change Allocator.openFile a.store.journal.disk config = _ at hopened
  use notices
  unfold FileJournal.reopen Allocator.disk
  rw [hopened]

/-- A journal in a file can be replaced while the old file stays open. -/
instance : FallibleJournal FileJournal where
  Mishap := Mishap
  strike := strike
  calm := calm
  Detached := Detached
  replace_struck := by
    rintro directory journal lines mishap hsound hlines _ rfl
    have hcalm : (journal.strike mishap).calm = journal :=
      calm_of_mishap (FileJournal.Sound.calm hsound)
    rcases Sound.replace_calm hlines (hcalm.symm ▸ hsound) with
      ⟨hresult, hafter, hremnant, hread⟩ | ⟨fault, hresult, hafter, hremnant, hcontent⟩
        | hdetached
    · exact .inl ⟨hresult, hafter, not_not.2 hremnant, hread⟩
    · right
      left
      refine ⟨fault, hresult, hafter, not_congr (iff_of_eq (congrArg (· = none) hremnant)), ?_⟩
      exact congrArg Text.readLines hcontent
    · exact .inr (.inr hdetached)
  detached_append h := h.append _
  detached_befall fault h := h.of_fault (some fault)
  detached_replace := by
    rintro directory journal lines hdetached hlines _ rfl
    have hmishap : journal.mishap = none := hdetached.mishap
    have hafter := calm_of_mishap (mishap_replace hmishap lines)
    have hends := Detached.replace_calm hlines ((calm_of_mishap hmishap).symm ▸ hdetached)
    simp only [hafter] at hends
    rcases hends with ⟨hresult, hsound, hremnant, hread⟩ | hdetached
    · exact .inl ⟨hresult, hsound, not_not.2 hremnant, hread⟩
    · exact .inr hdetached
  detached_replace_struck := by
    rintro directory journal lines mishap hdetached hlines _ rfl
    have hcalm : (journal.strike mishap).calm = journal := calm_of_mishap hdetached.mishap
    rcases Detached.replace_calm hlines (hcalm.symm ▸ hdetached) with
      ⟨hresult, hsound, hremnant, hread⟩ | hdetached
    · exact .inl ⟨hresult, hsound, not_not.2 hremnant, hread⟩
    · exact .inr hdetached
  detached_reopen := by
    intro a config settings hdetached hvalid
    obtain ⟨number, hsound⟩ := hdetached.exists_sound
    have hnamed : a.store.journal.Named config.storageDir number :=
      ⟨hsound.linked, hdetached.handle_lt⟩
    obtain ⟨notices, hreopen⟩ := hnamed.reopen_eq hvalid
    refine ⟨_, hsound.reopened, fun hne => hne rfl, ?_⟩
    change (FileJournal.reopen a config).result = _ ∧ (FileJournal.reopen a config).state = _
    rw [hreopen]
    exact ⟨rfl, rfl⟩

end FileJournal

namespace Allocator

/-! ### Compactions -/

section

variable {J : Type}

/-- How a compaction can end, by how the journal could be replaced and by what it is afterwards: if
it could not be replaced, nothing but the journal changes, and else the ledger is what the snapshot
gives. -/
inductive Compaction (a : Allocator J) (now : UInt64) (journal : J) :
    Except JournalFault Unit → Except Failure Nat → Allocator J → Prop
  | failed (path : String) (fault : JournalFault) :
    a.Compaction now journal (.error fault) (.error (.storage path fault)) (a.onJournal journal)
  | done :
    a.Compaction now journal (.ok ()) (.ok (a.ledger.snapshot now).length) (a.withStore {
      journal
      ledger := ({ cursor := a.ledger.cursor } : Ledger).applyAll (a.ledger.snapshot now)
      corrupt := 0 })

namespace Compaction

variable {a b : Allocator J} {now : UInt64} {before journal : J}
  {replaced : Except JournalFault Unit}

/-- When it fails, the journal could not be replaced, and nothing else changes. -/
theorem of_error
    {failure : Failure} (h : a.Compaction now journal replaced (.error failure) b) :
  ∃ path fault, failure = .storage path fault ∧ replaced = .error fault ∧ b = a.onJournal journal
  := by
  cases h with
  | failed path fault => exact ⟨path, fault, rfl, rfl, rfl⟩

/-- When it succeeds, the journal has been replaced, and the ledger is what the snapshot gives. -/
theorem of_ok
    {count : Nat} (h : a.Compaction now journal replaced (.ok count) b) :
  replaced = .ok () ∧ b = a.withStore {
    journal
    ledger := ({ cursor := a.ledger.cursor } : Ledger).applyAll (a.ledger.snapshot now)
    corrupt := 0 }
  := by
  cases h with
  | done => exact ⟨rfl, rfl⟩

/-- The journal is what the replacement has left. -/
theorem journal_eq
    {result : Except Failure Nat} (h : a.Compaction now journal replaced result b) :
  b.store.journal = journal
  := by
  cases h <;> rfl

/-- Another journal before and after the compaction does not matter. -/
theorem onJournal
    {result : Except Failure Nat}
    (h : (a.onJournal before).Compaction now journal replaced result b) (after : J) :
  a.Compaction now after replaced result (b.onJournal after)
  := by
  cases h with
  | failed path fault => exact .failed path fault
  | done => exact .done

end Compaction

/-- A compaction replaces the journal by the lines of the snapshot. -/
theorem Pooled.compaction
    [Journal J] {a : Allocator J} (h : a.Pooled) (now : UInt64)
    {replaced : Outcome JournalFault J Unit}
    (hreplaced : Journal.replace a.store.journal ((a.ledger.snapshot now).map Record.line)
      = replaced) :
  a.Compaction now replaced.state replaced.result (a.compact now).result (a.compact now).state
  := by
  subst hreplaced
  obtain ⟨hresult, hstate⟩ := h.compact_eq now
  rw [hresult, hstate]
  rcases hcompact : (a.store.compact now).result with failure | count
  · obtain ⟨fault, hfailed, rfl, hstore⟩ := Store.compact_of_error hcompact
    rw [hstore, h.withStore_journal]
    exact hfailed ▸ .failed _ fault
  · obtain ⟨hdone, rfl, hstore⟩ := Store.compact_of_ok hcompact
    rw [hstore]
    exact hdone ▸ .done

end

/-! ### Turns -/

variable {J : Type} [Journal J] [LawfulJournal J] [ReopenableJournal J] [HazardousJournal J]
  [FallibleJournal J]

open FallibleJournal (strike calm)

/-- A compaction in which the device fails. -/
def compactAmid (a : Allocator J) (mishap : FallibleJournal.Mishap J) (now : UInt64) :
    Outcome Failure (Allocator J) Nat :=
  let done := (a.onJournal (strike a.store.journal mishap)).compact now
  { done with state := done.state.onJournal (calm done.state.store.journal) }

/-- A compaction in which the device fails replaces the journal by the lines of the snapshot too, as
far as it comes. -/
theorem Pooled.compactionAmid
    {a : Allocator J} (h : a.Pooled) (mishap : FallibleJournal.Mishap J) (now : UInt64)
    {replaced : Outcome JournalFault J Unit}
    (hreplaced : Journal.replace (strike a.store.journal mishap)
      ((a.ledger.snapshot now).map Record.line) = replaced) :
  a.Compaction now (calm replaced.state) replaced.result (a.compactAmid mishap now).result
    (a.compactAmid mishap now).state
  := by
  have hstruck : (a.onJournal (strike a.store.journal mishap)).Pooled := h.move (.journal _)
  have hcompaction := hstruck.compaction now hreplaced
  unfold compactAmid
  dsimp only
  rw [hcompaction.journal_eq]
  exact hcompaction.onJournal (calm replaced.state)

/-- A step of a run in which compactions can fail. -/
inductive Turn (J : Type) [Journal J] [LawfulJournal J] [ReopenableJournal J] [HazardousJournal J]
    [FallibleJournal J] where
  | event (event : Event J)
  /-- The allocator is to be compacted, and the device fails in this. -/
  | mishap (mishap : FallibleJournal.Mishap J) (now : UInt64)

/-- The allocator after a turn. -/
def turn (a : Allocator J) : Turn J → Allocator J
  | .event event => a.step event
  | .mishap mishap now => (a.compactAmid mishap now).state

/-- The allocator after several turns. -/
def turns (a : Allocator J) (course : List (Turn J)) : Allocator J :=
  course.foldl turn a

/-- The last turn of a run is taken after the others. -/
@[simp]
theorem turns_concat
    (a : Allocator J) (course : List (Turn J)) (turn : Turn J) :
  a.turns (course ++ [turn]) = (a.turns course).turn turn
  := List.foldl_concat ..

/-- What is true at the beginning and kept by each turn is true of every run, if it may look at what
has happened so far. -/
theorem turns_induct
    {P : List (Turn J) → Allocator J → Prop} {a : Allocator J} {course : List (Turn J)}
    (ha : P [] a)
    (hturn : ∀ before turn after, course = before ++ turn :: after → P before (a.turns before) →
      P (before ++ [turn]) ((a.turns before).turn turn)) :
  P course (a.turns course)
  := by
  induction course using List.reverseRecOn with
  | nil => exact ha
  | append_singleton course turn ih =>
    rw [turns_concat]
    apply hturn course turn [] rfl
    apply ih
    rintro before other after rfl
    apply hturn before other (after ++ [turn])
    rw [List.append_assoc]
    rfl

/-- Somewhere in a run there is a turn of which `P` is true, if it is given the allocator before the
turn. -/
def Happens (a : Allocator J) (P : Allocator J → Turn J → Prop) (course : List (Turn J)) : Prop :=
  ∃ before turn after, course = before ++ turn :: after ∧ P (a.turns before) turn

/-- What happens in a run happens before its last turn or in it. -/
@[simp]
theorem happens_concat
    {a : Allocator J} {P : Allocator J → Turn J → Prop} {course : List (Turn J)} {turn : Turn J} :
  a.Happens P (course ++ [turn]) ↔ a.Happens P course ∨ P (a.turns course) turn
  := by
  constructor
  · rintro ⟨before, other, after, heq, hother⟩
    rcases List.eq_nil_or_concat after with rfl | ⟨front, last, rfl⟩
    · obtain ⟨rfl, hlast⟩ := List.append_inj' heq rfl
      cases hlast
      exact .inr hother
    · rw [List.concat_eq_append, ← List.cons_append, ← List.append_assoc] at heq
      obtain ⟨rfl, -⟩ := List.append_inj' heq rfl
      exact .inl ⟨before, other, front, rfl, hother⟩
  · rintro (⟨before, other, after, rfl, hother⟩ | hturn)
    · exact ⟨before, other, after ++ [turn], by rw [List.append_assoc, List.cons_append], hother⟩
    · exact ⟨course, turn, [], rfl, hturn⟩

/-- A step heals a journal in which a write has failed: it opens the allocator anew, or it compacts
it. -/
def Event.Heals (a : Allocator J) : Event J → Prop
  | .call what => ∃ count, (a.answer what).1 = .compacted (.ok count)
  | .hazard _ => False
  | .reopen spacing radius => (a.reopen spacing radius).result = .ok ()

/-- A turn heals a journal in which a write has failed. -/
def Turn.Heals (a : Allocator J) : Turn J → Prop
  | .event what => what.Heals a
  | .mishap how now => ∃ count, (a.compactAmid how now).result = .ok count

/-- The turn is a compaction that fails when the device does. -/
def Turn.Fails (a : Allocator J) : Turn J → Prop
  | .event _ => False
  | .mishap how now => ∃ failure, (a.compactAmid how now).result = .error failure

/-- Somewhere in a run there is a turn of which `P` is true, if it is given the allocator before the
turn, and nothing has healed the journal since. -/
def Since (a : Allocator J) (P : Allocator J → Turn J → Prop) (course : List (Turn J)) : Prop :=
  ∃ before turn after, course = before ++ turn :: after ∧ P (a.turns before) turn
    ∧ ¬ ((a.turns before).turn turn).Happens Turn.Heals after

section

variable {a : Allocator J} {P : Allocator J → Turn J → Prop}
  {course : List (Turn J)} {turn : Turn J}

/-- What happens in the last turn has happened, and nothing has healed the journal since. -/
theorem since_last
    (h : P (a.turns course) turn) :
  a.Since P (course ++ [turn])
  := by
  refine ⟨course, turn, [], rfl, h, ?_⟩
  rintro ⟨before, other, after, heq, -⟩
  cases before <;> cases heq

/-- A turn that does not heal the journal does not matter to what has happened since. -/
theorem Since.concat
    (h : a.Since P course) (hquiet : ¬ turn.Heals (a.turns course)) :
  a.Since P (course ++ [turn])
  := by
  obtain ⟨before, other, after, rfl, hother, hsince⟩ := h
  refine ⟨before, other, after ++ [turn], ?_, hother, ?_⟩
  · rw [List.append_assoc, List.cons_append]
  · have hturns : ((a.turns before).turn other).turns after
        = a.turns (before ++ other :: after) := by
      rw [turns, turns, turns, List.foldl_append, List.foldl_cons]
    simpa [hturns] using ⟨hsince, hquiet⟩

end

end Allocator

end IslandPlots
