import IslandPlots.Proofs.Allocator.Run

/-!
# A restart is invisible

As long as failing appends leave nothing behind, an allocator that is opened anew under its
configuration is what it was, up to a failure of the device that it would have met
(`Allocator.Settled.reopen_eq`).  So it makes no difference to any caller whether and when
this happens (`Allocator.reopen_invisible`).
-/

namespace IslandPlots

namespace Allocator

variable {J : Type} [Journal J] [LawfulJournal J] [ReopenableJournal J]

open LawfulJournal (Sound Stuck Clean held)
open ReopenableJournal (Started Pending fresh)

/-- The allocator as it is when it is opened anew. -/
def freshened (a : Allocator J) : Allocator J :=
  { a with store := { a.store with journal := fresh a.store.journal } }

/-- The allocator has the settings of the configuration and has never left bytes of a failed
append behind. -/
structure Settled (config : Config) (a : Allocator J) : Prop where
  coherent : a.Coherent
  clean : Clean a.store.journal
  valid : config.validate = .ok a.settings

/-- An allocator that was opened is settled. -/
theorem settled_of_started
    {config : Config} {a : Allocator J} (h : Started config a) :
  a.Settled config
  := by
  obtain ⟨hcoherent, hclean⟩ := ReopenableJournal.coherent_of_started h
  exact ⟨hcoherent, hclean, ReopenableJournal.valid_of_started h⟩

/-- A clean journal that is opened anew amounts to the same store. -/
theorem Coherent.ofJournal_fresh
    {a : Allocator J} (h : a.Coherent) (hclean : Clean a.store.journal) :
  Store.ofJournal (fresh a.store.journal)
    = { a.store with journal := fresh a.store.journal }
  := by
  have hstuck := LawfulJournal.not_stuck_of_clean hclean
  rw [Store.ofJournal, ReopenableJournal.held_fresh, h.consistent.ledger_eq hstuck,
    h.consistent.corrupt_eq hstuck]

/-- A journal that holds the same lines amounts to the same allocator. -/
theorem Settled.ofJournal_fresh
    {config : Config} {a : Allocator J} (h : a.Settled config) :
  ofJournal a.settings (fresh a.store.journal) = a.freshened
  := by
  rw [ofJournal, h.coherent.ofJournal_fresh h.clean, freshened]
  have hpool := h.coherent.pool
  have halive := h.coherent.alive
  obtain ⟨settings, store, pool, poisoned⟩ := a
  simp only at hpool halive
  subst halive
  rw [hpool]
  rfl

/-- Opening a settled allocator anew succeeds, and the allocator is what it was. -/
theorem Settled.reopen_eq
    {config : Config} {a : Allocator J} (h : a.Settled config) :
  (a.reopen config.spacing config.radius).result = .ok ()
    ∧ (a.reopen config.spacing config.radius).state = a.freshened
  := by
  have hdirectory := Config.storageDir_of_validate h.valid
  have hconfig : ({ config with storageDir := a.settings.storageDir } : Config) = config := by
    rw [hdirectory]
  have hsound := h.coherent.consistent.sound
  rw [hdirectory] at hsound
  rw [reopen, hconfig, ← h.ofJournal_fresh]
  exact ReopenableJournal.reopen_of_ok hsound h.valid

/-- An allocator that would not meet a failure of the device is what it was. -/
theorem Settled.freshened_eq
    {config : Config} {a : Allocator J} (h : a.Settled config)
    (hpending : ¬ Pending a.store.journal) :
  a.freshened = a
  := by
  rw [freshened, ReopenableJournal.fresh_eq h.coherent.consistent.sound h.clean hpending]

variable [HazardousJournal J]

/-- A step in which nothing befalls the journal that will leave bytes behind, and the
configuration stays the same. -/
def Event.Tame (config : Config) : Event J → Prop
  | .call _ => True
  | .hazard what => HazardousJournal.Mild what
  | .reopen spacing radius => spacing = config.spacing ∧ radius = config.radius

/-- The allocator is opened anew in the step. -/
def Event.isReopen : Event J → Bool
  | .reopen .. => true
  | _ => false

/-- A call keeps the settings and leaves nothing behind. -/
theorem Settled.answer
    {config : Config} {a : Allocator J} (h : a.Settled config) (call : Call) :
  (a.answer call).2.Settled config
  := by
  obtain ⟨hsettings, hclean⟩ := h.coherent.clean_answer h.clean call
  refine ⟨h.coherent.step (.call call), hclean, ?_⟩
  rw [hsettings]
  exact h.valid

/-- A tame step leaves a settled allocator settled. -/
theorem Settled.step
    {config : Config} {a : Allocator J} (h : a.Settled config) {event : Event J}
    (htame : event.Tame config) :
  (a.step event).Settled config
  := by
  cases event with
  | call call => exact h.answer call
  | hazard hazard =>
    exact ⟨h.coherent.step (.hazard hazard), HazardousJournal.clean_befall h.clean htame, h.valid⟩
  | reopen spacing radius =>
    obtain ⟨rfl, rfl⟩ := htame
    have hcoherent := h.coherent.step (.reopen config.spacing config.radius)
    rw [Allocator.step] at hcoherent ⊢
    rw [h.reopen_eq.2] at hcoherent ⊢
    exact ⟨hcoherent, ReopenableJournal.clean_fresh, h.valid⟩

/-- A tame run leaves a settled allocator settled. -/
theorem Settled.run
    {config : Config} {a : Allocator J} (h : a.Settled config) {events : List (Event J)}
    (htame : ∀ event ∈ events, event.Tame config) :
  (a.run events).Settled config
  := by
  apply run_induct h
  rintro before event after rfl hbefore
  apply hbefore.step (htame event _)
  exact List.mem_append_right _ List.mem_cons_self

/-- Opening a settled allocator anew while no failure of the device is pending changes no
answer and leaves the same allocator. -/
theorem Settled.answers_filter
    {config : Config} {a : Allocator J} (h : a.Settled config) {events : List (Event J)}
    (htame : ∀ event ∈ events, event.Tame config)
    (hpending : ∀ before event after, events = before ++ event :: after → event.isReopen = true →
      ¬ Pending (a.run before).store.journal) :
  a.answers (events.filter fun event => !event.isReopen) = a.answers events
    ∧ a.run (events.filter fun event => !event.isReopen) = a.run events
  := by
  induction events generalizing a with
  | nil => exact ⟨rfl, rfl⟩
  | cons event events ih =>
    rw [List.forall_mem_cons] at htame
    obtain ⟨hanswers, hrun⟩ := ih (h.step htame.1) htame.2
      (fun before other after heq => hpending (event :: before) other after (by rw [heq]; rfl))
    cases event with
    | call call =>
      rw [List.filter_cons_of_pos rfl]
      exact ⟨congrArg (_ :: ·) hanswers, hrun⟩
    | hazard hazard =>
      rw [List.filter_cons_of_pos rfl]
      exact ⟨hanswers, hrun⟩
    | reopen spacing radius =>
      obtain ⟨rfl, rfl⟩ := htame.1
      have hsame : a.step (.reopen config.spacing config.radius) = a :=
        h.reopen_eq.2.trans (h.freshened_eq (hpending [] _ _ rfl rfl))
      rw [List.filter_cons_of_neg (by simp [Event.isReopen])]
      rw [hsame] at hanswers hrun
      exact ⟨hanswers.trans (congrArg (answers · events) hsame.symm),
        hrun.trans (congrArg (Allocator.run · events) hsame.symm)⟩

/-- A restart is invisible: whatever was called, and whatever befell the journal without
leaving bytes behind, opening the allocator anew under its configuration gives the same
reservations, cursor, numbers and pool; and doing so in any places of a run, while no failure
of the device is pending, changes no answer. -/
theorem reopen_invisible
    {config : Config} {a : Allocator J} (h : Started config a) {events : List (Event J)}
    (htame : ∀ event ∈ events, event.Tame config) :
  (let reopened := (a.run events).reopen config.spacing config.radius
   reopened.result = .ok () ∧ reopened.state.settings = (a.run events).settings
    ∧ reopened.state.ledger = (a.run events).ledger
    ∧ reopened.state.store.corrupt = (a.run events).store.corrupt
    ∧ reopened.state.pool = (a.run events).pool)
    ∧ ((∀ before event after, events = before ++ event :: after → event.isReopen = true →
        ¬ Pending (a.run before).store.journal) →
      a.answers (events.filter fun event => !event.isReopen) = a.answers events
        ∧ a.run (events.filter fun event => !event.isReopen) = a.run events)
  := by
  have hsettled := settled_of_started h
  obtain ⟨hresult, hstate⟩ := (hsettled.run htame).reopen_eq
  refine ⟨⟨hresult, ?_⟩, hsettled.answers_filter htame⟩
  rw [hstate]
  exact ⟨rfl, rfl, rfl, rfl⟩

/-- Opening an allocator anew is invisible to the owner of a plot whose first allocation is
refused. -/
theorem reopen_invisible_holding :
  let config : Config := { spacing := ⟨10, by decide⟩, radius := ⟨0, by decide⟩, storageDir := "." }
  let events : List (Event FileJournal) := [.reopen config.spacing config.radius,
    .hazard ⟨5, false⟩, .call (.allocate "bob" 1), .call (.allocate "bob" 2)]
  ∃ a, Started config a
    ∧ ((a.run events).reopen config.spacing config.radius).state.ledger = (a.run events).ledger
    ∧ a.answers (events.filter fun event => !event.isReopen) = a.answers events
  := by
  intro config events
  have hvalid := Config.validate_of_no_exclusion (show 1 ≤ config.spacing.1 by decide) "."
  have hstarted : Started config (ofJournal _ (FileJournal.holding [])) :=
    FileJournal.started_holding hvalid rfl (by simp)
  have htame : ∀ event ∈ events, event.Tame config := by
    simp only [events, List.forall_mem_cons]
    exact ⟨⟨rfl, rfl⟩, rfl, trivial, trivial, by simp⟩
  obtain ⟨⟨-, -, hledger, -⟩, hinvisible⟩ := reopen_invisible hstarted htame
  refine ⟨_, hstarted, hledger, (hinvisible fun before event after heq hreopen => ?_).1⟩
  rcases before with _ | ⟨first, before⟩
  · exact fun hpending => hpending rfl
  · have hmem : event ∈ events.tail := by
      rw [heq]
      exact List.mem_append_right _ List.mem_cons_self
    simp only [events, List.tail_cons, List.mem_cons, List.not_mem_nil, or_false] at hmem
    rcases hmem with rfl | rfl | rfl <;> cases hreopen

end Allocator

end IslandPlots
