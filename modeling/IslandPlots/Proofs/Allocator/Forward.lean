import IslandPlots.Proofs.Allocator.Course

/-!
# The cursor only moves forward

The search along the spiral ends ahead of the cursor, wherever that is
(`Allocator.ahead_of_nextCandidate`), and a call moves the cursor only when it is an allocation that
succeeds through this search (`Allocator.Pooled.cursor_answer`).  Opening the allocator anew can at
most make up for the move of an allocation that failed and left the log stuck
(`Allocator.OnCourse.cursor_turn`), unless a compaction has replaced the log although it failed
(`Allocator.cursor_moves_forward`).
-/

namespace IslandPlots

open LawfulJournal (Sound Stuck held)

namespace Allocator

section

variable {J : Type} [Journal J]

/-! ### Calls -/

/-- A call is an allocation that succeeds through the search along the spiral and returns a given
plot. -/
def Call.Extends (a : Allocator J) (place : Coord) : Call → Prop
  | .allocate name now => a.choose.1 = .extend place ∧ (a.allocate name now).result = .ok place
  | _ => False

omit [Journal J] in
/-- A compaction leaves the cursor, however it ends. -/
theorem Compaction.cursor_eq
    {a b : Allocator J} {now : UInt64} {journal : J} {replaced : Except JournalFault Unit}
    {result : Except Failure Nat} (h : a.Compaction now journal replaced result b) :
  b.ledger.cursor = a.ledger.cursor
  := by
  cases h with
  | failed => rfl
  | done => exact Ledger.cursor_snapshot a.ledger now

namespace Pooled

variable {a : Allocator J} (h : a.Pooled)

include h

/-- An allocation that takes an orphan leaves the cursor. -/
theorem cursor_reuse
    {place : Coord} {queue : List Coord} (hqueue : a.pool.queue = place :: queue) (name : String)
    (now : UInt64) :
  (a.allocate name now).state.ledger.cursor = a.ledger.cursor
  := by
  obtain ⟨-, hstate⟩ := h.allocate_of_cons hqueue name now
  rw [hstate]
  rcases a.ledger_appended [.assign place (if name = "" then none else some name) now] with
    ⟨-, -, hledger⟩ | ⟨-, -, hledger⟩
  · rw [hledger]
  · rw [hledger]
    exact Ledger.cursor_applyAll_of_forall (by simp [Record.assign])

omit [Journal J] in
/-- An allocation goes on along the spiral when the pool is empty and the next coordinate may be
handed out. -/
theorem choose_of_next?
    (hqueue : a.pool.queue = []) {place : Coord}
    (hnext : (searchStart a.settings a.ledger.cursor).next? a.settings.spacing = some place)
    (hfree : a.isFree place = true) :
  a.choose.1 = .extend place
  := by
  refine h.choose_eq_extend.2 ⟨hqueue, ?_⟩
  unfold nextCandidate
  rw [Coord.seek_of_next? hnext hfree]
  rfl

/-- An allocation that goes on along the spiral appends the assignment of its plot together with a
move of the cursor to it. -/
theorem allocate_of_extend
    {place : Coord} (hchoose : a.choose.1 = .extend place) (name : String) (now : UInt64) :
  let written := a.store.appendAll
    [.assign place (if name = "" then none else some name) now, .advance place now]
  (a.allocate name now).result = written.result.map (fun _ => place)
    ∧ (a.allocate name now).state = a.withStore written.state
  := by
  obtain ⟨hqueue, hnext⟩ := h.choose_eq_extend.1 hchoose
  rcases h.allocate_of_nil hqueue name now with ⟨failure, hnone, -⟩ | ⟨found, hfound, hdone⟩
  · cases hnone.symm.trans hnext
  · obtain rfl : found = place := Except.ok.inj (hfound.symm.trans hnext)
    exact hdone

/-- An allocation that goes on along the spiral fails and leaves the cursor, or it returns its plot
and moves the cursor to it. -/
theorem cursor_extend
    {place : Coord} (hchoose : a.choose.1 = .extend place) (name : String) (now : UInt64) :
  (∃ failure, (a.allocate name now).result = .error failure
      ∧ (a.allocate name now).state.ledger.cursor = a.ledger.cursor)
    ∨ (a.allocate name now).result = .ok place
      ∧ (a.allocate name now).state.ledger.cursor = place
  := by
  obtain ⟨hresult, hstate⟩ := h.allocate_of_extend hchoose name now
  rw [hresult, hstate]
  rcases a.ledger_appended
      [.assign place (if name = "" then none else some name) now, .advance place now] with
    ⟨failure, hwritten, hledger⟩ | ⟨hwritten, haccepts, hledger⟩
  · rw [hwritten, hledger]
    exact .inl ⟨failure, rfl, rfl⟩
  · rw [hwritten, hledger]
    exact .inr ⟨rfl, Ledger.cursor_applyAll_assign haccepts⟩

/-- A release leaves the cursor. -/
theorem cursor_release
    (place : Coord) (now : UInt64) :
  (a.release place now).state.ledger.cursor = a.ledger.cursor
  := by
  rcases h.release_cases place now with ⟨-, -, hstate⟩ | ⟨-, -, hstate⟩
  · rw [hstate]
  · rw [hstate]
    rcases a.ledger_appended [.orphan place now] with ⟨-, -, hledger⟩ | ⟨-, -, hledger⟩
    · rw [hledger]
    · rw [hledger]
      exact Ledger.cursor_applyAll_of_forall (by simp [Record.orphan])

/-- A compaction leaves the cursor. -/
theorem cursor_compact
    (now : UInt64) :
  (a.compact now).state.ledger.cursor = a.ledger.cursor
  := (h.compaction now rfl).cursor_eq

/-- A call leaves the cursor, unless it is an allocation that succeeds through the search along the
spiral and returns the plot at which the cursor is then. -/
theorem cursor_answer
    (call : Call) :
  (a.answer call).2.ledger.cursor = a.ledger.cursor
    ∨ call.Extends a (a.answer call).2.ledger.cursor
  := by
  cases call with
  | allocate name now =>
    change (a.allocate name now).state.ledger.cursor = a.ledger.cursor
      ∨ a.choose.1 = .extend (a.allocate name now).state.ledger.cursor
        ∧ (a.allocate name now).result = .ok (a.allocate name now).state.ledger.cursor
    rcases hqueue : a.pool.queue with _ | ⟨place, queue⟩
    · rcases h.allocate_of_nil hqueue name now with ⟨-, -, -, hstate⟩ | ⟨place, hnext, -⟩
      · rw [hstate]
        exact .inl rfl
      · have hchoose := h.choose_eq_extend.2 ⟨hqueue, hnext⟩
        rcases h.cursor_extend hchoose name now with ⟨-, -, hcursor⟩ | ⟨hresult, hcursor⟩
        · exact .inl hcursor
        · rw [hcursor]
          exact .inr ⟨hchoose, hresult⟩
    · exact .inl (h.cursor_reuse hqueue name now)
  | release place now => exact .inl (h.cursor_release place now)
  | compact now => exact .inl (h.cursor_compact now)
  | ownerOf | isAssigned | stats => exact .inl rfl

/-- An allocation that succeeds through the search along the spiral moves the cursor to the plot
that it returns. -/
theorem cursor_of_extends
    {call : Call} {place : Coord} (hextends : call.Extends a place) :
  (a.answer call).2.ledger.cursor = place
  := by
  cases call with
  | allocate name now =>
    obtain ⟨hchoose, hallocated⟩ := hextends
    rcases h.cursor_extend hchoose name now with ⟨failure, hresult, -⟩ | ⟨-, hcursor⟩
    · cases hresult.symm.trans hallocated
    · exact hcursor
  | release | compact | ownerOf | isAssigned | stats => cases hextends

end Pooled

end

/-! ### Turns -/

variable {J : Type} [Journal J] [LawfulJournal J] [ReopenableJournal J] [HazardousJournal J]
  [FallibleJournal J]

open ReopenableJournal (Started)

/-- The turn is an allocation that succeeds through the search along the spiral and returns a given
plot. -/
def Turn.Extends (a : Allocator J) (place : Coord) : Turn J → Prop
  | .event (.call what) => what.Extends a place
  | _ => False

/-- The allocator is opened anew in the turn. -/
def Turn.isReopen : Turn J → Bool
  | .event what => what.isReopen
  | .mishap .. => false

/-- The allocator is opened anew in the turn while the log is not the one to which it writes. -/
def Turn.Strays (a : Allocator J) (turn : Turn J) : Prop :=
  turn.isReopen = true ∧ FallibleJournal.Detached a.settings.storageDir a.store.journal

/-- Such an allocation takes the plot from the spiral that was chosen for it. -/
theorem Turn.Extends.choose_eq
    {a : Allocator J} {place : Coord} {turn : Turn J} (h : turn.Extends a place) :
  a.choose.1 = .extend place
  := by
  rcases turn with (call | hazard | ⟨spacing, radius⟩) | ⟨mishap, now⟩
  · cases call with
    | allocate name now => exact h.1
    | release | compact | ownerOf | isAssigned | stats => cases h
  · cases h
  · cases h
  · cases h

/-- An allocation that succeeds through the search along the spiral moves the cursor to the plot
that it returns. -/
theorem Turn.Extends.cursor_eq
    {a : Allocator J} (ha : a.Pooled) {place : Coord} {turn : Turn J} (h : turn.Extends a place) :
  (a.turn turn).ledger.cursor = place
  := by
  rcases turn with (call | hazard | ⟨spacing, radius⟩) | ⟨mishap, now⟩
  · exact ha.cursor_of_extends h
  · cases h
  · cases h
  · cases h

/-- A compaction in which the device fails leaves the cursor. -/
theorem Pooled.cursor_compactAmid
    {a : Allocator J} (h : a.Pooled) (mishap : FallibleJournal.Mishap J) (now : UInt64) :
  (a.compactAmid mishap now).state.ledger.cursor = a.ledger.cursor
  := (h.compactionAmid mishap now rfl).cursor_eq

/-- A turn leaves the cursor, or it takes the plot on which the cursor is then from the spiral, or it
opens the allocator anew. -/
theorem Pooled.cursor_turn
    {a : Allocator J} (h : a.Pooled) (turn : Turn J) :
  (a.turn turn).ledger.cursor = a.ledger.cursor
    ∨ turn.Extends a (a.turn turn).ledger.cursor
    ∨ turn.isReopen = true
  := by
  rcases turn with (call | hazard | ⟨spacing, radius⟩) | ⟨mishap, now⟩
  · rcases h.cursor_answer call with hsame | hextends
    · exact .inl hsame
    · exact .inr (.inl hextends)
  · exact .inl rfl
  · exact .inr (.inr rfl)
  · exact .inl (h.cursor_compactAmid mishap now)

omit [Journal J] [LawfulJournal J] [ReopenableJournal J] [HazardousJournal J] [FallibleJournal J] in
/-- Allocators under one configuration but for the radius have the same spacing. -/
theorem spacing_eq_of_validate
    {config : Config} {a b : Allocator J}
    (ha : ∃ radius, ({ config with radius } : Config).validate = .ok a.settings)
    (hb : ∃ radius, ({ config with radius } : Config).validate = .ok b.settings) :
  a.settings.spacing = b.settings.spacing
  := by
  obtain ⟨_, hvalid⟩ := ha
  obtain ⟨_, hvalid'⟩ := hb
  have hval : a.settings.spacing.val = b.settings.spacing.val :=
    (Config.spacing_of_validate hvalid).trans (Config.spacing_of_validate hvalid').symm
  generalize a.settings.spacing = s at hval
  generalize b.settings.spacing = t at hval
  cases s
  cases t
  cases hval
  rfl

/-- Opening an allocator on course anew with the same spacing leaves the cursor, or the log is stuck
and the cursor is then on the plot that was missed. -/
theorem OnCourse.cursor_turn
    {config : Config} {missed : Coord → Prop} {a : Allocator J} (h : a.OnCourse config missed)
    {turn : Turn J} (hspacing : turn.KeepsSpacing config) (hreopen : turn.isReopen = true) :
  (a.turn turn).ledger.cursor = a.ledger.cursor
    ∨ Stuck a.store.journal ∧ a.choose.1 = .extend (a.turn turn).ledger.cursor
      ∧ missed (a.turn turn).ledger.cursor
  := by
  rcases turn with (call | hazard | ⟨spacing, radius⟩) | ⟨mishap, now⟩
  · cases hreopen
  · cases hreopen
  · obtain rfl : spacing = config.spacing := hspacing
    change (a.reopen config.spacing radius).state.ledger.cursor = a.ledger.cursor ∨ _
    rcases h.reopen radius missed with ⟨-, hlogged⟩ | ⟨-, hstate⟩
    · rw [hlogged]
      rcases h.logged with hsame | hstuck
      · exact .inl hsame
      · right
        change _ ∧ a.choose.1 = .extend (a.reopen config.spacing radius).state.ledger.cursor
          ∧ missed (a.reopen config.spacing radius).state.ledger.cursor
        rw [hlogged]
        exact hstuck
    · rw [hstate]
      exact .inl rfl
  · cases hreopen

section

variable {config : Config} {a : Allocator J} (h : Started config a) {course : List (Turn J)}
  (hcourse : ∀ turn ∈ course, turn.KeepsSpacing config)

include h hcourse

/-- After a run with the same spacing the pool is that of the ledger, and the settings are those of
the configuration but for the radius. -/
theorem pooled_turns :
  (a.turns course).Pooled
    ∧ ∃ radius, ({ config with radius } : Config).validate = .ok (a.turns course).settings
  := by
  rcases underway_turns h hcourse with honCourse | ⟨hadrift, -⟩
  · exact ⟨honCourse.coherent.pooled, honCourse.valid⟩
  · exact ⟨hadrift.pooled, hadrift.valid⟩

/-- The plot that the next allocation takes from the spiral is ahead of the cursor, at any time in a
run with the same spacing. -/
theorem ahead_of_choose
    {place : Coord} (hchoose : (a.turns course).choose.1 = .extend place) :
  (a.turns course).ledger.cursor.Ahead a.settings.spacing place
  := by
  obtain ⟨hpooled, radius, hvalid⟩ := pooled_turns h hcourse
  have hstart : config.validate = .ok a.settings := ReopenableJournal.valid_of_started h
  have hspacing : (a.turns course).settings.spacing = a.settings.spacing :=
    spacing_eq_of_validate ⟨radius, hvalid⟩ ⟨config.radius, hstart⟩
  rw [← hspacing]
  exact ahead_of_nextCandidate hvalid (hpooled.choose_eq_extend.1 hchoose).2

/-- A turn with the same spacing leaves the cursor, or it takes the plot on which the cursor is then
from the spiral, or it opens the allocator anew while the log is stuck and amounts to that plot, or
while the log is not the one to which the allocator writes. -/
theorem cursor_turn
    {turn : Turn J} (hturn : turn.KeepsSpacing config) :
  let before := a.turns course
  let after := before.turn turn
  after.ledger.cursor = before.ledger.cursor
    ∨ turn.Extends before after.ledger.cursor
    ∨ (turn.isReopen = true ∧ Stuck before.store.journal
      ∧ before.choose.1 = .extend after.ledger.cursor
      ∧ a.Since (Turn.Misses after.ledger.cursor) course)
    ∨ turn.Strays before ∧ a.Since Turn.Fails course
  := by
  intro before after
  rcases (pooled_turns h hcourse).1.cursor_turn turn with hsame | hextends | hreopen
  · exact .inl hsame
  · exact .inr (.inl hextends)
  rcases underway_turns h hcourse with honCourse | ⟨hadrift, hfails⟩
  · rcases honCourse.cursor_turn hturn hreopen with hsame | hstuck
    · exact .inl hsame
    · exact .inr (.inr (.inl ⟨hreopen, hstuck⟩))
  · exact .inr (.inr (.inr ⟨⟨hreopen, hadrift.detached⟩, hfails⟩))

/-- A run with the same spacing leaves the cursor where it was or moves it ahead, if the allocator is
never opened anew while the log is not the one to which it writes. -/
theorem ahead_turns
    (hstrays : ¬ a.Happens Turn.Strays course) :
  (a.turns course).ledger.cursor = a.ledger.cursor
    ∨ a.ledger.cursor.Ahead a.settings.spacing (a.turns course).ledger.cursor
  := by
  induction course using List.reverseRecOn with
  | nil => exact .inl rfl
  | append_singleton course turn ih =>
    have hbefore : ∀ other ∈ course, other.KeepsSpacing config :=
      fun other hother => hcourse other (List.mem_append_left _ hother)
    have hturn : turn.KeepsSpacing config :=
      hcourse turn (List.mem_append_right _ List.mem_cons_self)
    rw [happens_concat, not_or] at hstrays
    have hcursor := ih hbefore hstrays.1
    have hahead : ∀ {place}, (a.turns course).choose.1 = .extend place →
        a.ledger.cursor.Ahead a.settings.spacing place := by
      intro place hchoose
      have hnext := ahead_of_choose h hbefore hchoose
      rcases hcursor with hstart | hmoved
      · rw [← hstart]
        exact hnext
      · exact hmoved.trans hnext
    rw [turns_concat]
    rcases cursor_turn h hbefore hturn with hsame | hextends | ⟨-, -, hchoose, -⟩ | ⟨hstray, -⟩
    · rw [hsame]
      exact hcursor
    · exact .inr (hahead hextends.choose_eq)
    · exact .inr (hahead hchoose)
    · exact absurd hstray hstrays.2

end

/-- The cursor only moves forward.  Whatever is called on an allocator that was opened on a log,
whatever befalls the journal, however the device fails in compactions and however often the
allocator is opened anew with the same spacing: the cursor changes only in an allocation that
succeeds through the search along the spiral, and when the allocator is opened anew while the log is
stuck.  It moves to the plot that the allocation returns, or to the one that was to be taken from the
spiral in an allocation which failed and left the log stuck, and which the next allocation would have
taken.  This is a point of the lattice, which the spiral visits after the cell that the old cursor
floors to.

Nothing is said of the cursor when the allocator is opened anew after a compaction that failed but
replaced the log, so that it is not the one to which the allocator writes. -/
theorem cursor_moves_forward
    {config : Config} {a : Allocator J} (h : Started config a) {course : List (Turn J)}
    (hcourse : ∀ turn ∈ course, turn.KeepsSpacing config) {turn : Turn J}
    (hturn : turn.KeepsSpacing config) :
  let spacing := a.settings.spacing
  let before := a.turns course
  let after := before.turn turn
  (after.ledger.cursor = before.ledger.cursor
      ∨ (turn.Extends before after.ledger.cursor
          ∨ turn.isReopen = true ∧ Stuck before.store.journal
            ∧ before.choose.1 = .extend after.ledger.cursor
            ∧ a.Since (Turn.Misses after.ledger.cursor) course)
        ∧ before.ledger.cursor.Ahead spacing after.ledger.cursor
      ∨ turn.Strays before ∧ a.Since Turn.Fails course)
    ∧ (∀ place, turn.Extends before place →
      after.ledger.cursor = place ∧ before.ledger.cursor.Ahead spacing place)
    ∧ (¬ a.Happens Turn.Strays course → before.ledger.cursor = a.ledger.cursor
      ∨ a.ledger.cursor.Ahead spacing before.ledger.cursor)
  := by
  intro spacing before after
  have hahead : ∀ {place}, before.choose.1 = .extend place →
      before.ledger.cursor.Ahead spacing place := ahead_of_choose h hcourse
  refine ⟨?_, fun place hextends => ⟨?_, hahead hextends.choose_eq⟩, ahead_turns h hcourse⟩
  · rcases cursor_turn h hcourse hturn with hsame | hextends | hmissed | hstrays
    · exact .inl hsame
    · exact .inr (.inl ⟨.inl hextends, hahead hextends.choose_eq⟩)
    · exact .inr (.inl ⟨.inr hmissed, hahead hmissed.2.2.1⟩)
    · exact .inr (.inr hstrays)
  · exact hextends.cursor_eq (pooled_turns h hcourse).1

/-- On a log that leaves the cursor off the lattice and inside the exclusion, the first allocation
moves it to the first plot outside. -/
theorem cursor_moves_forward_off_lattice :
  let config : Config :=
    { spacing := ⟨10, by decide⟩, radius := ⟨15, by decide⟩, storageDir := "." }
  let cursor : Coord := ⟨7, -3, by decide, by decide⟩
  let place : Coord := ⟨20, -10, by decide, by decide⟩
  ∃ a : Allocator FileJournal, Started config a ∧ a.ledger.cursor = cursor
    ∧ (a.allocate "ann" 6).result = .ok place
    ∧ (a.allocate "ann" 6).state.ledger.cursor = place
    ∧ cursor.Ahead a.settings.spacing place
  := by
  intro config cursor place
  let settings : Settings :=
    { spacing := ⟨10, by decide, by decide⟩, exclusion := ⟨15⟩, storageDir := "." }
  let a := ofJournal settings (FileJournal.holding ["5;7;-3;CURSOR_ADVANCE;"])
  have hvalid : config.validate = .ok settings := by
    simp [Config.validate, Exclusion.rings, maxExclusionRings, config, settings]
  have hstarted : Started config a := FileJournal.started_holding hvalid rfl (by decide)
  have hcoherent := ReopenableJournal.coherent_of_started hstarted
  have hpooled : a.Pooled := hcoherent.1.pooled
  have hcursor : a.ledger.cursor = cursor := by
    decide +kernel
  have hchoose : a.choose.1 = .extend place :=
    hpooled.choose_of_next? (by decide +kernel) (by decide +kernel) (by decide +kernel)
  have hwritten : (a.store.appendAll [.assign place (some "ann") 6, .advance place 6]).result
      = .ok () := by
    decide +kernel
  have hresult : (a.allocate "ann" 6).result = .ok place := by
    rw [(hpooled.allocate_of_extend hchoose "ann" 6).1]
    exact congrArg (Except.map fun _ => place) hwritten
  have hnone : ∀ turn ∈ ([] : List (Turn FileJournal)), turn.KeepsSpacing config :=
    List.forall_mem_nil _
  have hcall : (Turn.event (.call (.allocate "ann" 6)) : Turn FileJournal).KeepsSpacing config :=
    trivial
  obtain ⟨-, hextends, -⟩ := cursor_moves_forward hstarted hnone hcall
  obtain ⟨hmoved, hahead⟩ := hextends place ⟨hchoose, hresult⟩
  exact ⟨a, hstarted, hcursor, hresult, hmoved, hcursor ▸ hahead⟩

/-- Opening the allocator anew moves the cursor when an allocation has failed whose bytes are all in
the log. -/
theorem cursor_moved_by_reopen :
  let config : Config :=
    { spacing := ⟨10, by decide⟩, radius := ⟨0, by decide⟩, storageDir := "." }
  let place : Coord := ⟨10, 0, by decide, by decide⟩
  let fault : ShortWrite := ⟨1000, true⟩
  let failing : List (Event FileJournal) := [.hazard fault, .call (.allocate "ann" 1)]
  ∃ a, Started config a
    ∧ (∃ failure, ((a.run [.hazard fault]).allocate "ann" 1).result = .error failure)
    ∧ (a.run failing).ledger.cursor = Coord.origin
    ∧ ((a.run failing).reopen config.spacing config.radius).result = .ok ()
    ∧ ((a.run failing).reopen config.spacing config.radius).state.ledger.cursor = place
  := by
  intro config place fault failing
  let settings : Settings :=
    { spacing := ⟨10, by decide, by decide⟩, exclusion := ⟨0⟩, storageDir := "." }
  let a := ofJournal settings (FileJournal.holding [])
  have hvalid : config.validate = .ok settings := Config.validate_of_no_exclusion (by decide) "."
  have hstarted : Started config a := FileJournal.started_holding hvalid rfl (by decide)
  have hcoherent := (ReopenableJournal.coherent_of_started hstarted).1
  have hpooled : (a.run [.hazard fault]).Pooled := (hcoherent.run [.hazard fault]).pooled
  have hchoose : (a.run [.hazard fault]).choose.1 = .extend place :=
    hpooled.choose_of_next? (by decide +kernel) (by decide +kernel) (by decide +kernel)
  obtain ⟨hresult, hstate⟩ := hpooled.allocate_of_extend hchoose "ann" 1
  have hrefused : ((a.run [.hazard fault]).allocate "ann" 1).result ≠ .ok place := by
    rw [hresult]
    decide +kernel
  have hsound := (hcoherent.run failing).consistent.sound
  change a.run failing = (a.run [.hazard fault]).withStore _ at hstate
  have hreopen : ((a.run failing).reopen config.spacing config.radius).result = .ok ()
      ∧ ((a.run failing).reopen config.spacing config.radius).state
        = ofJournal settings (ReopenableJournal.fresh (a.run failing).store.journal) := by
    rw [hstate] at hsound ⊢
    exact ReopenableJournal.reopen_of_ok hsound hvalid
  rcases hpooled.cursor_extend hchoose "ann" 1 with ⟨failure, hfailed, hcursor⟩ | ⟨hok, -⟩
  · refine ⟨a, hstarted, ⟨failure, hfailed⟩, hcursor, hreopen.1, ?_⟩
    rw [hreopen.2, hstate]
    decide +kernel
  · exact absurd hok hrefused

end Allocator

end IslandPlots
