import IslandPlots.Proofs.Allocator.Candidate
import IslandPlots.Proofs.Allocator.Restart
import IslandPlots.Proofs.Allocator.Turn
import IslandPlots.Proofs.Ledger.Torn

/-!
# The cursor in the log

The log can amount to another cursor than the ledger has while it is stuck.  Then the other cursor is
the plot that a failed allocation was to take from the spiral, which the next one would take too
(`Allocator.OnCourse`).  Besides, the log can be another one than the allocator writes to, once a
compaction has failed (`Allocator.Adrift`).

As long as the spacing stays the same, a run leaves the allocator in one of these two states, and the
failure from which the difference comes is in the run, with no healing since
(`Allocator.underway_turns`).
-/

namespace IslandPlots

open LawfulJournal (Sound Stuck held)

namespace Allocator

/-- What the next allocation does is chosen without the journal. -/
theorem Pooled.choose_onJournal
    {J : Type} [Journal J] {a : Allocator J} (h : a.Pooled) {place : Coord}
    (hchoose : a.choose.1 = .extend place) (journal : J) :
  (a.onJournal journal).choose.1 = .extend place
  := by
  rw [h.choose_eq_extend] at hchoose
  exact (h.onJournal journal).choose_eq_extend.2 hchoose

variable {J : Type} [Journal J] [LawfulJournal J]

/-- The cursor to which the log amounts. -/
def loggedCursor (a : Allocator J) : Coord :=
  (Ledger.replay (held a.store.journal)).ledger.cursor

/-- A log that is not stuck amounts to the cursor of the ledger. -/
theorem Coherent.loggedCursor_eq
    {a : Allocator J} (h : a.Coherent) (hstuck : ¬ Stuck a.store.journal) :
  a.loggedCursor = a.ledger.cursor
  := congrArg Ledger.cursor (h.consistent.ledger_eq hstuck)

/-- The settings are those of the configuration but for the radius, and the log amounts to the
cursor of the ledger, unless it is stuck and amounts to the plot that the next allocation takes from
the spiral, and that was missed. -/
structure OnCourse (config : Config) (missed : Coord → Prop) (a : Allocator J) : Prop where
  coherent : a.Coherent
  valid : ∃ radius, ({ config with radius } : Config).validate = .ok a.settings
  logged : a.loggedCursor = a.ledger.cursor
    ∨ Stuck a.store.journal ∧ a.choose.1 = .extend a.loggedCursor ∧ missed a.loggedCursor

/-- The allocator whose journal was replaced by the snapshot is on course, whatever the journal was
before. -/
theorem Pooled.onCourse_of_snapshot
    {a : Allocator J} (h : a.Pooled) {config : Config} {missed : Coord → Prop}
    (hvalid : ∃ radius, ({ config with radius } : Config).validate = .ok a.settings) {now : UInt64}
    {journal : J} (hsound : Sound a.settings.storageDir journal) (hstuck : ¬ Stuck journal)
    (hheld : held journal = (a.ledger.snapshot now).map Record.line) :
  (a.withStore {
    journal
    ledger := ({ cursor := a.ledger.cursor } : Ledger).applyAll (a.ledger.snapshot now)
    corrupt := 0 }).OnCourse config missed
  := by
  have hconsistent := Store.consistent_of_snapshot h.distinct hsound hheld
  have hcoherent : (a.withStore _).Coherent := ⟨hconsistent, rfl, h.alive⟩
  exact ⟨hcoherent, hvalid, .inl (hcoherent.loggedCursor_eq hstuck)⟩

/-- The allocator of a journal in working order is on course. -/
theorem onCourse_ofJournal
    {config : Config} {missed : Coord → Prop} {settings : Settings} {journal : J}
    (hvalid : ∃ radius, ({ config with radius } : Config).validate = .ok settings)
    (hsound : Sound settings.storageDir journal) :
  (ofJournal settings journal).OnCourse config missed
  := ⟨coherent_ofJournal hsound, hvalid, .inl rfl⟩

namespace OnCourse

variable {config : Config} {missed missed' : Coord → Prop} {a : Allocator J}
  (h : a.OnCourse config missed)

include h

/-- More plots may have been missed. -/
theorem mono
    (hkeep : ∀ place, missed place → missed' place) :
  a.OnCourse config missed'
  := ⟨h.coherent, h.valid, h.logged.imp_right fun ⟨hstuck, hchoose, hmissed⟩ =>
    ⟨hstuck, hchoose, hkeep _ hmissed⟩⟩

/-- A journal that holds the same lines leaves the allocator on course. -/
theorem onJournal
    {journal : J} (hsound : Sound a.settings.storageDir journal)
    (hstuck : Stuck journal ↔ Stuck a.store.journal) (hheld : held journal = held a.store.journal) :
  (a.onJournal journal).OnCourse config missed
  := by
  have hlogged : (a.onJournal journal).loggedCursor = a.loggedCursor := by
    change (Ledger.replay (held journal)).ledger.cursor = _
    rw [hheld]
    rfl
  refine ⟨⟨h.coherent.consistent.of_held_eq hsound hstuck hheld, h.coherent.pool,
    h.coherent.alive⟩, h.valid, ?_⟩
  rw [hlogged]
  rcases h.logged with hsame | ⟨hbefore, hchoose, hmissed⟩
  · exact .inl hsame
  · exact .inr ⟨hstuck.2 hbefore, h.coherent.pooled.choose_onJournal hchoose journal, hmissed⟩

/-- What an append leaves is on course, if it moves the cursor only to the plot that the next
allocation takes from the spiral, and this is missed when the append fails and the log is stuck. -/
theorem appendAll
    {records : List Record} (hbuilt : ∀ r ∈ records, r.Built)
    (hmoves : ∀ r ∈ records, r.kind = .advance → a.choose.1 = .extend r.place)
    (hkeep : ∀ place, missed place → missed' place)
    (hmiss : ∀ failure, (a.store.appendAll records).result = .error failure →
      Stuck (a.store.appendAll records).state.journal →
        ∀ r ∈ records, r.kind = .advance → missed' r.place) :
  (a.withStore (a.store.appendAll records).state).OnCourse config missed'
  := by
  have hpooled := h.coherent.pooled
  have hcoherent := h.coherent.appendAll hbuilt
  have happended := Store.appended h.coherent.consistent.sound records
  generalize (a.store.appendAll records).result = result at happended hmiss
  generalize (a.store.appendAll records).state = after at happended hcoherent hmiss ⊢
  cases happended with
  | rejected failure =>
    rw [hpooled.withStore_store]
    exact h.mono hkeep
  | acknowledged haccepts hsound hbefore hafter hheld =>
    exact ⟨hcoherent, h.valid, .inl (hcoherent.loggedCursor_eq hafter)⟩
  | refused failure hsound hstuck hheld =>
    rw [hpooled.withStore_journal]
    exact (h.onJournal hsound hstuck hheld).mono hkeep
  | @torn journal failure k haccepts hsound hbefore hafter hheld =>
    rw [hpooled.withStore_journal] at hcoherent ⊢
    have hlogged : (a.onJournal journal).loggedCursor
        = (a.ledger.applyAll (Record.tornAll records k)).cursor := by
      change (Ledger.replay (held journal)).ledger.cursor = _
      rw [hheld, Ledger.ledger_replay_append, h.coherent.consistent.ledger_eq hbefore,
        Record.readable_torn hbuilt]
      rfl
    refine ⟨hcoherent, h.valid, ?_⟩
    rw [hlogged]
    -- The bytes that stayed show records of the batch, so at most its move of the cursor.
    rcases a.ledger.cursor_applyAll (Record.tornAll records k) with
      hsame | ⟨found, hfound, hkind, hplace⟩
    · exact .inl hsame
    · obtain ⟨r, hr, hkind', hplace'⟩ := Record.mem_tornAll hfound
      have hadvance : r.kind = .advance := hkind'.symm.trans hkind
      right
      rw [hplace, hplace']
      exact ⟨hafter, hpooled.choose_onJournal (hmoves r hr hadvance) journal,
        hmiss failure rfl hafter r hr hadvance⟩

/-- What a compaction leaves is on course. -/
theorem compact
    {now : UInt64}
    (hkeep : ∀ failure, (a.compact now).result = .error failure →
      ∀ place, missed place → missed' place) :
  (a.compact now).state.OnCourse config missed'
  := by
  obtain ⟨hresult, hstate⟩ := h.coherent.pooled.compact_eq now
  have hcompacted := Store.compacted h.coherent.consistent.sound now
  rw [hresult] at hkeep
  rw [hstate]
  generalize (a.store.compact now).result = result at hcompacted hkeep
  generalize (a.store.compact now).state = after at hcompacted ⊢
  cases hcompacted with
  | acknowledged hsound hafter hheld =>
    exact h.coherent.pooled.onCourse_of_snapshot h.valid hsound hafter hheld
  | refused failure hsound hstuck hheld =>
    rw [h.coherent.pooled.withStore_journal]
    exact (h.onJournal hsound hstuck hheld).mono (hkeep failure rfl)

end OnCourse

/-! ### Steps -/

variable [ReopenableJournal J] [HazardousJournal J]

/-- If the allocator is opened anew in the step, it is with the spacing of the configuration. -/
def Event.KeepsSpacing (config : Config) : Event J → Prop
  | .reopen spacing _ => spacing = config.spacing
  | _ => True

/-- The step is an allocation that was to take a given plot from the spiral, but failed and left the
log stuck. -/
def Event.Misses (place : Coord) (a : Allocator J) : Event J → Prop
  | .call (.allocate name now) => a.choose.1 = .extend place
    ∧ (∃ failure, (a.allocate name now).result = .error failure)
    ∧ Stuck (a.allocate name now).state.store.journal
  | _ => False

omit [HazardousJournal J] in
/-- Opening an allocator anew with the same spacing heals it, and then it is on course and its cursor
is where the log has it; or it is refused and does nothing. -/
theorem OnCourse.reopen
    {config : Config} {missed : Coord → Prop} {a : Allocator J} (h : a.OnCourse config missed)
    (radius : Blocks) (missed' : Coord → Prop) :
  ((a.reopen config.spacing radius).state.OnCourse config missed'
      ∧ (a.reopen config.spacing radius).state.ledger.cursor = a.loggedCursor)
    ∨ (a.reopen config.spacing radius).result ≠ .ok ()
      ∧ (a.reopen config.spacing radius).state = a
  := by
  obtain ⟨old, hold⟩ := h.valid
  have hdirectory : a.settings.storageDir = config.storageDir := (Config.of_validate hold).2.2
  have hsound := h.coherent.consistent.sound
  unfold Allocator.reopen
  rw [hdirectory] at hsound ⊢
  change Sound ({ config with radius } : Config).storageDir _ at hsound
  rcases hvalid : ({ config with radius } : Config).validate with failure | settings
  · right
    obtain ⟨hresult, hstate⟩ := ReopenableJournal.reopen_of_error (a := a) hvalid
    refine ⟨?_, hstate⟩
    rw [hresult]
    nofun
  · left
    have hfresh : Sound settings.storageDir (ReopenableJournal.fresh a.store.journal) := by
      rw [Config.storageDir_of_validate hvalid]
      exact ReopenableJournal.sound_fresh hsound
    rw [(ReopenableJournal.reopen_of_ok hsound hvalid).2]
    refine ⟨onCourse_ofJournal ⟨radius, hvalid⟩ hfresh, ?_⟩
    change (Ledger.replay (held (ReopenableJournal.fresh a.store.journal))).ledger.cursor = _
    rw [ReopenableJournal.held_fresh]
    rfl

/-- A step with the same spacing leaves the allocator on course. -/
theorem OnCourse.step
    {config : Config} {missed missed' : Coord → Prop} {a : Allocator J}
    (h : a.OnCourse config missed) {event : Event J} (hspacing : event.KeepsSpacing config)
    (hkeep : ¬ event.Heals a → ∀ place, missed place → missed' place)
    (hmiss : ∀ place, event.Misses place a → missed' place) :
  (a.step event).OnCourse config missed'
  := by
  have hpooled := h.coherent.pooled
  cases event with
  | call call =>
    cases call with
    | allocate name now =>
      have hquiet := hkeep (by rintro ⟨_, ⟨⟩⟩)
      change (a.allocate name now).state.OnCourse config missed'
      rcases hpooled.allocate_cases name now with
        ⟨-, -, -, hstate⟩ | ⟨place, moves, -, -, hmoves, hextend, hresult, hstate⟩
      · rw [hstate]
        exact h.mono hquiet
      · have hmissed := fun place => hmiss place
        change ∀ place, _ ∧ (∃ failure, (a.allocate name now).result = .error failure)
          ∧ Stuck (a.allocate name now).state.store.journal → _ at hmissed
        rw [hresult, hstate] at hmissed
        rw [hstate]
        refine h.appendAll ?_ ?_ hquiet ?_
        · rw [List.forall_mem_cons]
          exact ⟨.assign .., fun r hr => (hmoves r hr).1⟩
        · rw [List.forall_mem_cons]
          exact ⟨nofun, fun r hr _ => hextend r hr⟩
        · intro failure herror hstuck
          rw [List.forall_mem_cons]
          refine ⟨nofun, fun r hr _ => hmissed r.place ⟨hextend r hr, ⟨failure, ?_⟩, hstuck⟩⟩
          rw [herror]
          rfl
    | release place now =>
      have hquiet := hkeep (by rintro ⟨_, ⟨⟩⟩)
      change (a.release place now).state.OnCourse config missed'
      rcases hpooled.release_cases place now with ⟨-, -, hstate⟩ | ⟨-, -, hstate⟩
      · rw [hstate]
        exact h.mono hquiet
      · rw [hstate]
        refine h.appendAll ?_ ?_ hquiet fun _ _ _ => ?_ <;> rw [List.forall_mem_singleton]
        · exact .orphan ..
        · nofun
        · nofun
    | compact now =>
      refine h.compact fun failure hfailed => hkeep ?_
      rintro ⟨count, hcount⟩
      cases (congrArg Answer.compacted hfailed).symm.trans hcount
    | ownerOf | isAssigned | stats => exact h.mono (hkeep (by rintro ⟨_, ⟨⟩⟩))
  | hazard hazard =>
    exact (h.onJournal (HazardousJournal.sound_befall hazard h.coherent.consistent.sound)
      (HazardousJournal.stuck_befall hazard) (HazardousJournal.held_befall hazard)).mono (hkeep id)
  | reopen spacing radius =>
    obtain rfl : spacing = config.spacing := hspacing
    change (a.reopen config.spacing radius).state.OnCourse config missed'
    rcases h.reopen radius missed' with ⟨hcourse, -⟩ | ⟨hrefused, hstate⟩
    · exact hcourse
    · rw [hstate]
      exact h.mono (hkeep hrefused)

/-! ### Turns -/

variable [FallibleJournal J]

/-- If the allocator is opened anew in the turn, it is with the spacing of the configuration. -/
def Turn.KeepsSpacing (config : Config) : Turn J → Prop
  | .event what => what.KeepsSpacing config
  | .mishap .. => True

/-- The turn is an allocation that was to take a given plot from the spiral, but failed and left the
log stuck. -/
def Turn.Misses (place : Coord) (a : Allocator J) : Turn J → Prop
  | .event what => what.Misses place a
  | .mishap .. => False

/-- The settings are those of the configuration but for the radius, the pool is that of the ledger,
and the log was replaced, but it is not the one to which the allocator writes. -/
structure Adrift (config : Config) (a : Allocator J) : Prop where
  pooled : a.Pooled
  valid : ∃ radius, ({ config with radius } : Config).validate = .ok a.settings
  detached : FallibleJournal.Detached a.settings.storageDir a.store.journal

/-- What a compaction leaves is on course, also when the journal could not be replaced, unless it was
replaced nevertheless. -/
theorem OnCourse.of_compaction
    {config : Config} {missed missed' : Coord → Prop} {a b : Allocator J}
    (h : a.OnCourse config missed) {now : UInt64} {journal : J}
    {replaced : Except JournalFault Unit} {result : Except Failure Nat}
    (hcompaction : a.Compaction now journal replaced result b)
    (hends : (replaced = .ok () ∧ Sound a.settings.storageDir journal ∧ ¬ Stuck journal
        ∧ held journal = (a.ledger.snapshot now).map Record.line)
      ∨ (∃ fault, replaced = .error fault ∧ Sound a.settings.storageDir journal
        ∧ (Stuck journal ↔ Stuck a.store.journal) ∧ held journal = held a.store.journal)
      ∨ ∃ fault, replaced = .error fault
        ∧ FallibleJournal.Detached a.settings.storageDir journal)
    (hkeep : (¬ ∃ count, result = .ok count) → ∀ place, missed place → missed' place) :
  b.OnCourse config missed' ∨ b.Adrift config ∧ ∃ failure, result = .error failure
  := by
  have hpooled := h.coherent.pooled
  cases hcompaction with
  | failed path fault =>
    rcases hends with ⟨⟨⟩, -⟩ | ⟨-, -, hsound, hstuck, hheld⟩ | ⟨-, -, hdetached⟩
    · left
      apply (h.onJournal hsound hstuck hheld).mono (hkeep _)
      rintro ⟨count, ⟨⟩⟩
    · exact .inr ⟨⟨hpooled.move (.journal journal), h.valid, hdetached⟩, _, rfl⟩
  | done =>
    rcases hends with ⟨-, hsound, hstuck, hheld⟩ | ⟨-, ⟨⟩, -⟩ | ⟨-, ⟨⟩, -⟩
    exact .inl (hpooled.onCourse_of_snapshot h.valid hsound hstuck hheld)

/-- A turn with the same spacing leaves the allocator on course, or it is a compaction that fails and
leaves it adrift. -/
theorem OnCourse.turn
    {config : Config} {missed missed' : Coord → Prop} {a : Allocator J}
    (h : a.OnCourse config missed) {turn : Turn J} (hspacing : turn.KeepsSpacing config)
    (hkeep : ¬ turn.Heals a → ∀ place, missed place → missed' place)
    (hmiss : ∀ place, turn.Misses place a → missed' place) :
  (a.turn turn).OnCourse config missed' ∨ (a.turn turn).Adrift config ∧ turn.Fails a
  := by
  cases turn with
  | event event => exact .inl (h.step hspacing hkeep hmiss)
  | mishap mishap now =>
    have hends := FallibleJournal.replace_struck mishap h.coherent.consistent.sound
      (Store.unbroken_map_line (a.ledger.snapshot now)) rfl
    exact h.of_compaction (h.coherent.pooled.compactionAmid mishap now rfl) hends hkeep

namespace Adrift

variable {config : Config} {missed : Coord → Prop} {a : Allocator J} (h : a.Adrift config)

include h

/-- An append leaves the allocator adrift. -/
theorem of_appendAll
    {b : Allocator J} (hb : b.Pooled) {records : List Record}
    (hstate : b = a.withStore (a.store.appendAll records).state) :
  b.Adrift config
  := by
  subst hstate
  refine ⟨hb, h.valid, ?_⟩
  change FallibleJournal.Detached a.settings.storageDir (a.store.appendAll records).state.journal
  rcases a.store.journal_appendAll records with hsame | happended
  · rw [hsame]
    exact h.detached
  · rw [happended]
    exact FallibleJournal.detached_append h.detached

/-- What a compaction leaves is adrift, if the journal could not be replaced, and else on course. -/
theorem of_compaction
    {b : Allocator J} {now : UInt64} {journal : J} {replaced : Except JournalFault Unit}
    {result : Except Failure Nat} (hcompaction : a.Compaction now journal replaced result b)
    (hends : (replaced = .ok () ∧ Sound a.settings.storageDir journal ∧ ¬ Stuck journal
        ∧ held journal = (a.ledger.snapshot now).map Record.line)
      ∨ ∃ fault, replaced = .error fault
        ∧ FallibleJournal.Detached a.settings.storageDir journal) :
  b.OnCourse config missed ∨ b.Adrift config ∧ ∃ failure, result = .error failure
  := by
  cases hcompaction with
  | failed path fault =>
    rcases hends with ⟨⟨⟩, -⟩ | ⟨-, -, hdetached⟩
    exact .inr ⟨⟨h.pooled.move (.journal journal), h.valid, hdetached⟩, _, rfl⟩
  | done =>
    rcases hends with ⟨-, hsound, hstuck, hheld⟩ | ⟨-, ⟨⟩, -⟩
    exact .inl (h.pooled.onCourse_of_snapshot h.valid hsound hstuck hheld)

/-- A compaction leaves the allocator adrift, or it succeeds and brings it on course. -/
theorem compact
    (now : UInt64) :
  (a.compact now).state.OnCourse config missed
    ∨ (a.compact now).state.Adrift config ∧ ∃ failure, (a.compact now).result = .error failure
  := h.of_compaction (h.pooled.compaction now rfl)
    (FallibleJournal.detached_replace h.detached (Store.unbroken_map_line _) rfl)

/-- A compaction in which the device fails leaves the allocator adrift, or it succeeds and brings it
on course. -/
theorem compactAmid
    (mishap : FallibleJournal.Mishap J) (now : UInt64) :
  (a.compactAmid mishap now).state.OnCourse config missed
    ∨ (a.compactAmid mishap now).state.Adrift config
      ∧ ∃ failure, (a.compactAmid mishap now).result = .error failure
  := h.of_compaction (h.pooled.compactionAmid mishap now rfl)
    (FallibleJournal.detached_replace_struck mishap h.detached (Store.unbroken_map_line _) rfl)

/-- A call leaves the allocator adrift, or it is a compaction that succeeds and brings it on
course. -/
theorem answer
    (call : Call) :
  (a.answer call).2.OnCourse config missed
    ∨ (a.answer call).2.Adrift config ∧ ¬ (Event.call call : Event J).Heals a
  := by
  have hpooled : (a.answer call).2.Pooled := h.pooled.move (.call call)
  cases call with
  | allocate name now =>
    right
    refine ⟨?_, by rintro ⟨_, ⟨⟩⟩⟩
    rcases h.pooled.allocate_cases name now with
      ⟨-, -, -, hstate⟩ | ⟨place, moves, -, -, -, -, -, hstate⟩
    · change (a.allocate name now).state.Adrift config
      rw [hstate]
      exact h
    · exact h.of_appendAll hpooled hstate
  | release place now =>
    right
    refine ⟨?_, by rintro ⟨_, ⟨⟩⟩⟩
    rcases h.pooled.release_cases place now with ⟨-, -, hstate⟩ | ⟨-, -, hstate⟩
    · change (a.release place now).state.Adrift config
      rw [hstate]
      exact h
    · exact h.of_appendAll hpooled hstate
  | compact now =>
    rcases h.compact now with hcourse | ⟨hadrift, failure, hfailed⟩
    · exact .inl hcourse
    · right
      refine ⟨hadrift, ?_⟩
      rintro ⟨count, hcount⟩
      cases (congrArg Answer.compacted hfailed).symm.trans hcount
  | ownerOf | isAssigned | stats => exact .inr ⟨h, by rintro ⟨_, ⟨⟩⟩⟩

/-- A turn with the same spacing leaves the allocator adrift, or it heals it and brings it on
course. -/
theorem turn
    {turn : Turn J} (hspacing : turn.KeepsSpacing config) :
  (a.turn turn).OnCourse config missed ∨ (a.turn turn).Adrift config ∧ ¬ turn.Heals a
  := by
  rcases turn with (call | hazard | ⟨spacing, radius⟩) | ⟨mishap, now⟩
  · exact h.answer call
  · exact .inr ⟨⟨h.pooled.move (.journal _), h.valid,
      FallibleJournal.detached_befall hazard h.detached⟩, id⟩
  · obtain rfl : spacing = config.spacing := hspacing
    obtain ⟨old, hold⟩ := h.valid
    have hdirectory : a.settings.storageDir = config.storageDir := (Config.of_validate hold).2.2
    have hdetached := h.detached
    change (a.reopen config.spacing radius).state.OnCourse config missed
      ∨ (a.reopen config.spacing radius).state.Adrift config
        ∧ ¬ (a.reopen config.spacing radius).result = .ok ()
    unfold Allocator.reopen
    rw [hdirectory] at hdetached ⊢
    change FallibleJournal.Detached ({ config with radius } : Config).storageDir _ at hdetached
    rcases hvalid : ({ config with radius } : Config).validate with failure | settings
    · obtain ⟨hresult, hstate⟩ := ReopenableJournal.reopen_of_error (a := a) hvalid
      right
      rw [hresult, hstate]
      exact ⟨h, nofun⟩
    · obtain ⟨journal, hsound, -, -, hstate⟩ := FallibleJournal.detached_reopen hdetached hvalid
      left
      rw [hstate]
      apply onCourse_ofJournal ⟨radius, hvalid⟩
      rw [Config.storageDir_of_validate hvalid]
      exact hsound
  · rcases h.compactAmid mishap now with hcourse | ⟨hadrift, failure, hfailed⟩
    · exact .inl hcourse
    · right
      refine ⟨hadrift, ?_⟩
      rintro ⟨count, hcount⟩
      cases hfailed.symm.trans hcount

end Adrift

/-! ### Runs -/

open ReopenableJournal (Started)

omit [HazardousJournal J] [FallibleJournal J] in
/-- An allocator that was opened is on course. -/
theorem onCourse_of_started
    {config : Config} {missed : Coord → Prop} {a : Allocator J} (h : Started config a) :
  a.OnCourse config missed
  := by
  obtain ⟨hcoherent, hclean⟩ := ReopenableJournal.coherent_of_started h
  refine ⟨hcoherent, ⟨config.radius, ReopenableJournal.valid_of_started h⟩, .inl ?_⟩
  exact hcoherent.loggedCursor_eq (LawfulJournal.not_stuck_of_clean hclean)

/-- A run with the same spacing leaves an allocator that was opened on course, and the plot to which
the log amounts was missed since it was healed last, or it leaves it adrift, and a compaction has
failed since then. -/
theorem underway_turns
    {config : Config} {a : Allocator J} (h : Started config a) {course : List (Turn J)}
    (hcourse : ∀ turn ∈ course, turn.KeepsSpacing config) :
  (a.turns course).OnCourse config (fun place => a.Since (Turn.Misses place) course)
    ∨ (a.turns course).Adrift config ∧ a.Since Turn.Fails course
  := by
  refine turns_induct (P := fun past b =>
    b.OnCourse config (fun place => a.Since (Turn.Misses place) past)
      ∨ b.Adrift config ∧ a.Since Turn.Fails past) (.inl (onCourse_of_started h)) ?_
  rintro before turn after rfl hbefore
  have hspacing : turn.KeepsSpacing config :=
    hcourse turn (List.mem_append_right _ List.mem_cons_self)
  rcases hbefore with honCourse | ⟨hadrift, hfailed⟩
  · rcases honCourse.turn hspacing (fun hquiet _ hmissed => hmissed.concat hquiet)
        (fun _ hmisses => since_last hmisses) with hafter | ⟨hafter, hfails⟩
    · exact .inl hafter
    · exact .inr ⟨hafter, since_last hfails⟩
  · rcases hadrift.turn hspacing with hafter | ⟨hafter, hquiet⟩
    · exact .inl hafter
    · exact .inr ⟨hafter, hfailed.concat hquiet⟩

end Allocator

end IslandPlots
