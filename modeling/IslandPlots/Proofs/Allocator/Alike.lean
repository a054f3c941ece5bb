import IslandPlots.Proofs.Allocator.Restart
import IslandPlots.Proofs.Store.Alike

/-!
# Owners leave no trace in the placement

Two allocators are alike when they have the same settings and their stores are alike
(`Allocator.Alike`).  Calls that differ in the names of owners and in the times are answered
alike and leave alike what was alike (`Allocator.Alike.answer`), and so does everything else
that can happen as long as no bytes of a failed append stay in the log
(`Allocator.Alike.step`).  So the names have no influence on who gets which plot
(`Allocator.placement_ignores_owners`), whatever text they are.
-/

namespace IslandPlots

namespace Allocator

variable {J : Type} [Journal J] [LawfulJournal J] [ReopenableJournal J] [HazardousJournal J]
  [OutlinedJournal J]

open LawfulJournal (Sound Stuck Clean held)
open OutlinedJournal (outline)
open ReopenableJournal (Started fresh)

/-! ### What a caller who is not named can see -/

/-- A call without the name of an owner and without the time. -/
def Call.outline : Call → Call
  | .allocate _ _ => .allocate "" 0
  | .release place _ => .release place 0
  | .compact _ => .compact 0
  | call => call

/-- A step without the name of an owner and without the time. -/
def Event.outline : Event J → Event J
  | .call what => .call what.outline
  | event => event

/-- An answer without the name of an owner and without the number of bytes that a device has
stored. -/
def Answer.outline : Answer → Answer
  | .allocated result => .allocated (result.mapError Failure.uncounted)
  | .released result => .released (result.mapError Failure.uncounted)
  | .compacted result => .compacted (result.mapError Failure.uncounted)
  | .owner _ => .owner (.ok none)
  | answer => answer

/-- A step in which nothing befalls the journal that will leave bytes behind. -/
def Event.Mild : Event J → Prop
  | .hazard what => HazardousJournal.Mild what
  | _ => True

omit [ReopenableJournal J] [OutlinedJournal J] in
/-- Whether a step is mild does not depend on names and times. -/
theorem Event.mild_outline (event : Event J) :
  event.outline.Mild ↔ event.Mild
  := by
  cases event <;> rfl

/-- The answer that a step gives, if it is a call. -/
def Event.answer? (a : Allocator J) : Event J → Option Answer
  | .call what => some (a.answer what).1
  | _ => none

omit [OutlinedJournal J] in
/-- The answers of a run begin with that of its first step. -/
theorem answers_cons (a : Allocator J) (event : Event J) (events : List (Event J)) :
  a.answers (event :: events) = (event.answer? a).toList ++ (a.step event).answers events
  := by
  cases event <;> rfl

/-- The allocator agrees with its journal and has never left bytes of a failed append
behind. -/
structure Tidy (a : Allocator J) : Prop where
  coherent : a.Coherent
  clean : Clean a.store.journal

omit [OutlinedJournal J] in
/-- A mild step leaves a tidy allocator tidy. -/
theorem Tidy.step
    {a : Allocator J} (h : a.Tidy) {event : Event J} (hmild : event.Mild) :
  (a.step event).Tidy
  where
  coherent := h.coherent.step event
  clean := by
    cases event with
    | call call => exact (h.coherent.clean_answer h.clean call).2
    | hazard hazard => exact HazardousJournal.clean_befall h.clean hmild
    | reopen spacing radius =>
      rw [Allocator.step]
      rcases h.coherent.reopen_cases spacing radius with ⟨settings, -, hstate⟩ | hstate
      · rw [hstate]
        exact ReopenableJournal.clean_fresh
      · rw [hstate]
        exact h.clean

omit [ReopenableJournal J] [HazardousJournal J] [OutlinedJournal J] in
/-- A question about a coherent allocator is answered. -/
theorem Coherent.query_eq
    {a : Allocator J} (h : a.Coherent) {α : Type} (question : Allocator J → α) :
  a.query question = .ok (question a)
  := by
  rw [query, h.alive]
  rfl

/-- The settings are the same, and the stores are alike. -/
structure Alike (a b : Allocator J) : Prop where
  settings : a.settings = b.settings
  store : a.store.Alike b.store

namespace Alike

variable {a b : Allocator J} (h : a.Alike b)

include h

/-- Just the same plots may be handed out. -/
theorem isFree_eq :
  a.isFree = b.isFree
  := by
  funext place
  have hassigned : a.ledger.isAssigned place = b.ledger.isAssigned place :=
    h.store.isAssigned_eq place
  rw [isFree, isFree, h.settings, hassigned]

/-- The search along the spiral has the same result. -/
theorem nextCandidate_eq :
  a.nextCandidate = b.nextCandidate
  := by
  have hcursor : a.ledger.cursor = b.ledger.cursor := Ledger.cursor_congr h.store.ledger
  rw [nextCandidate, nextCandidate, h.settings, h.isFree_eq, hcursor]

variable (ha : a.Tidy) (hb : b.Tidy)

include ha hb

/-- The same plots wait to be handed out again, in the same order. -/
theorem pool_eq :
  a.pool = b.pool
  := by
  have hledger : a.ledger.outline = b.ledger.outline := h.store.ledger
  have horphans : a.ledger.orphans = b.ledger.orphans := by
    rw [← Ledger.orphans_outline, hledger, Ledger.orphans_outline]
  rw [ha.coherent.pool, hb.coherent.pool, h.settings]
  exact Pool.ofLedger_congr horphans _

/-- The numbers that describe the allocators are the same. -/
theorem counts_eq :
  a.counts = b.counts
  := by
  have hledger : a.ledger.outline = b.ledger.outline := h.store.ledger
  have hassigned : a.ledger.assignedCount = b.ledger.assignedCount := by
    rw [← Ledger.assignedCount_outline, hledger, Ledger.assignedCount_outline]
  have horphaned : a.ledger.orphanedCount = b.ledger.orphanedCount := by
    rw [← Ledger.orphanedCount_outline, hledger, Ledger.orphanedCount_outline]
  have hrevision : a.ledger.revision = b.ledger.revision := by
    change a.ledger.outline.revision = b.ledger.outline.revision
    rw [hledger]
  rw [counts, counts, hassigned, horphaned, hrevision, h.store.corrupt, h.pool_eq ha hb,
    Ledger.cursor_congr hledger]

/-- The question for the numbers has the same answer. -/
theorem stats_eq :
  a.stats = b.stats
  := by
  rw [stats, stats, ha.coherent.query_eq, hb.coherent.query_eq, h.counts_eq ha hb]

/-- Appending records with the same outlines has the same result and leaves the allocators
alike. -/
theorem appendAll
    {α : Type} (value : α) {records records' : List Record}
    (hrecords : records.map Record.outline = records'.map Record.outline) :
  ((a.store.appendAll records).result.map fun _ => value).mapError Failure.uncounted
      = ((b.store.appendAll records').result.map fun _ => value).mapError Failure.uncounted
    ∧ (a.withStore (a.store.appendAll records).state).Alike
      (b.withStore (b.store.appendAll records').state)
  := by
  have hsound := ha.coherent.consistent.sound
  have hsound' := hb.coherent.consistent.sound
  rw [← h.settings] at hsound'
  obtain ⟨hresult, hstore⟩ := h.store.appendAll hsound hsound' ha.clean hb.clean hrecords
  refine ⟨?_, h.settings, hstore⟩
  rcases exists_of_mapError_eq_mapError hresult with
    ⟨failure, failure', hfailed, hfailed', hsame⟩ | ⟨⟨⟨⟩⟩, hwritten, hwritten'⟩
  · rw [hfailed, hfailed']
    exact congrArg Except.error hsame
  · rw [hwritten, hwritten']

/-- Allocations are answered alike, whoever they are for. -/
theorem allocate (name name' : String) (now now' : UInt64) :
  (a.allocate name now).result.mapError Failure.uncounted
      = (b.allocate name' now').result.mapError Failure.uncounted
    ∧ (a.allocate name now).state.Alike (b.allocate name' now').state
  := by
  have hpool := h.pool_eq ha hb
  have hnext := h.nextCandidate_eq
  rcases hqueue : a.pool.queue with _ | ⟨place, queue⟩
  · have hqueue' : b.pool.queue = [] := by
      rw [← hpool, hqueue]
    rcases ha.coherent.pooled.allocate_of_nil hqueue name now with
        ⟨failure, hfound, hresult, hstate⟩ | ⟨place, hfound, hresult, hstate⟩ <;>
      rcases hb.coherent.pooled.allocate_of_nil hqueue' name' now' with
        ⟨failure', hfound', hresult', hstate'⟩ | ⟨place', hfound', hresult', hstate'⟩ <;>
      rw [hfound, hfound'] at hnext <;> cases hnext <;> rw [hresult, hresult', hstate, hstate']
    · exact ⟨rfl, h⟩
    · apply h.appendAll ha hb place
      rfl
  · have hqueue' : b.pool.queue = place :: queue := by
      rw [← hpool, hqueue]
    obtain ⟨hresult, hstate⟩ := ha.coherent.pooled.allocate_of_cons hqueue name now
    obtain ⟨hresult', hstate'⟩ := hb.coherent.pooled.allocate_of_cons hqueue' name' now'
    rw [hresult, hresult', hstate, hstate']
    apply h.appendAll ha hb place
    rfl

/-- Releases are answered alike. -/
theorem release (place : Coord) (now now' : UInt64) :
  (a.release place now).result.mapError Failure.uncounted
      = (b.release place now').result.mapError Failure.uncounted
    ∧ (a.release place now).state.Alike (b.release place now').state
  := by
  obtain ⟨hresult, hstate⟩ := ha.coherent.pooled.release_eq place now
  obtain ⟨hresult', hstate'⟩ := hb.coherent.pooled.release_eq place now'
  have hassigned := h.store.isAssigned_eq place
  rw [hresult, hresult', hstate, hstate']
  unfold Store.markOrphan
  rw [hassigned]
  by_cases hheld : b.store.ledger.isAssigned place = true
  · rw [if_pos hheld, if_pos hheld]
    apply h.appendAll ha hb true
    rfl
  · rw [if_neg hheld, if_neg hheld]
    exact ⟨rfl, h.settings, h.store⟩

/-- Compactions are answered alike. -/
theorem compact (now now' : UInt64) :
  (a.compact now).result = (b.compact now').result
    ∧ (a.compact now).state.Alike (b.compact now').state
  := by
  obtain ⟨hresult, hstate⟩ := ha.coherent.pooled.compact_eq now
  obtain ⟨hresult', hstate'⟩ := hb.coherent.pooled.compact_eq now'
  obtain ⟨hcompacted, hstore⟩ := h.store.compact ha.coherent.consistent.sound now now'
  rw [hresult, hresult', hstate, hstate']
  exact ⟨hcompacted, h.settings, hstore⟩

/-- Calls that differ in names and times are answered alike and leave alike what was alike. -/
theorem answer
    {call call' : Call} (hcall : call.outline = call'.outline) :
  (a.answer call).1.outline = (b.answer call').1.outline
    ∧ (a.answer call).2.Alike (b.answer call').2
  := by
  cases call <;> cases call' <;> cases hcall
  case allocate.allocate name now name' now' =>
    obtain ⟨hresult, hstate⟩ := h.allocate ha hb name name' now now'
    exact ⟨congrArg Answer.allocated hresult, hstate⟩
  case release.release place now now' =>
    obtain ⟨hresult, hstate⟩ := h.release ha hb place now now'
    exact ⟨congrArg Answer.released hresult, hstate⟩
  case compact.compact now now' =>
    obtain ⟨hresult, hstate⟩ := h.compact ha hb now now'
    refine ⟨?_, hstate⟩
    exact congrArg (fun result => Answer.compacted (result.mapError Failure.uncounted)) hresult
  case ownerOf.ownerOf => exact ⟨rfl, h⟩
  case isAssigned.isAssigned place =>
    have hassigned : a.ledger.isAssigned place = b.ledger.isAssigned place :=
      h.store.isAssigned_eq place
    refine ⟨congrArg Answer.assigned ?_, h⟩
    rw [isAssigned, isAssigned, ha.coherent.query_eq, hb.coherent.query_eq, hassigned]
  case stats.stats => exact ⟨congrArg Answer.counted (h.stats_eq ha hb), h⟩

/-- Opening the allocators anew leaves them alike. -/
theorem reopen (spacing radius : Blocks) :
  (a.reopen spacing radius).state.Alike (b.reopen spacing radius).state
  := by
  have hsound := ha.coherent.consistent.sound
  have hsound' := hb.coherent.consistent.sound
  unfold Allocator.reopen
  rw [← h.settings] at hsound' ⊢
  rcases hvalid : ({ spacing, radius, storageDir := a.settings.storageDir } : Config).validate
    with failure | settings
  · rw [(ReopenableJournal.reopen_of_error hvalid).2, (ReopenableJournal.reopen_of_error hvalid).2]
    exact h
  · rw [(ReopenableJournal.reopen_of_ok hsound hvalid).2,
      (ReopenableJournal.reopen_of_ok hsound' hvalid).2]
    refine ⟨rfl, ?_⟩
    change (Store.ofJournal _).Alike (Store.ofJournal _)
    rw [ha.coherent.ofJournal_fresh ha.clean, hb.coherent.ofJournal_fresh hb.clean]
    exact ⟨h.store.ledger, h.store.corrupt, OutlinedJournal.fresh_congr h.store.journal⟩

/-- Steps that differ in names and times are answered alike and leave alike what was alike. -/
theorem step
    {event event' : Event J} (hevent : event.outline = event'.outline) :
  (event.answer? a).map Answer.outline = (event'.answer? b).map Answer.outline
    ∧ (a.step event).Alike (b.step event')
  := by
  cases event with
  | call call =>
    cases event' with
    | call call' =>
      obtain ⟨hanswer, hstate⟩ := h.answer ha hb (Event.call.inj hevent)
      exact ⟨congrArg some hanswer, hstate⟩
    | hazard | reopen => cases hevent
  | hazard hazard =>
    cases event' with
    | hazard hazard' =>
      cases hevent
      exact ⟨rfl, h.settings, h.store.ledger, h.store.corrupt,
        OutlinedJournal.befall_congr hazard h.store.journal⟩
    | call | reopen => cases hevent
  | reopen spacing radius =>
    cases event' with
    | reopen spacing' radius' =>
      cases hevent
      exact ⟨rfl, h.reopen ha hb spacing radius⟩
    | call | hazard => cases hevent

end Alike

/-! ### Runs -/

/-- Runs that differ in names and times give answers that are alike and leave alike what was
alike. -/
theorem Alike.run
    {a b : Allocator J} (h : a.Alike b) (ha : a.Tidy) (hb : b.Tidy)
    {events events' : List (Event J)} (hmild : ∀ event ∈ events, event.Mild)
    (hevents : events.map Event.outline = events'.map Event.outline) :
  (a.answers events).map Answer.outline = (b.answers events').map Answer.outline
    ∧ (a.run events).Alike (b.run events') ∧ (a.run events).Tidy ∧ (b.run events').Tidy
  := by
  induction events generalizing a b events' with
  | nil =>
    obtain rfl := List.map_eq_nil_iff.1 hevents.symm
    exact ⟨rfl, h, ha, hb⟩
  | cons event events ih =>
    rcases events' with _ | ⟨event', events'⟩
    · cases hevents
    rw [List.map_cons, List.map_cons] at hevents
    obtain ⟨hevent, hevents⟩ := List.cons.inj hevents
    rw [List.forall_mem_cons] at hmild
    have hmild' : event'.Mild := by
      rw [← Event.mild_outline, ← hevent, Event.mild_outline]
      exact hmild.1
    obtain ⟨hanswer, hstep⟩ := h.step ha hb hevent
    obtain ⟨hanswers, hrun⟩ := ih hstep (ha.step hmild.1) (hb.step hmild') hmild.2 hevents
    refine ⟨?_, hrun⟩
    rw [answers_cons, answers_cons, List.map_append, List.map_append, hanswers,
      ← Option.toList_map, ← Option.toList_map, hanswer]

/-! ### Clients at once -/

section

variable {J : Type} [Journal J]

/-- The plots that clients receive whom the lock admits one after the other, each at a given
time. -/
def received (a : Allocator J) : List (String × UInt64) → List Coord
  | [] => []
  | (name, now) :: clients =>
    (a.allocate name now).result.toOption.toList ++ received (a.allocate name now).state clients

end

/-- Clients receive the same plots from allocators that are alike. -/
theorem Alike.received
    {a b : Allocator J} (h : a.Alike b) (ha : a.Tidy) (hb : b.Tidy)
    {clients others : List (String × UInt64)} (hlength : clients.length = others.length) :
  a.received clients = b.received others
  := by
  induction clients generalizing a b others with
  | nil =>
    obtain rfl := List.length_eq_zero_iff.1 hlength.symm
    rfl
  | cons client clients ih =>
    rcases others with _ | ⟨other, others⟩
    · cases hlength
    obtain ⟨name, now⟩ := client
    obtain ⟨name', now'⟩ := other
    have hmild : ∀ name now, (Event.call (.allocate name now) : Event J).Mild := fun _ _ => trivial
    obtain ⟨hresult, hstate⟩ := h.allocate ha hb name name' now now'
    have hrest := ih hstate (ha.step (hmild name now)) (hb.step (hmild name' now'))
      (Nat.succ.inj hlength)
    rw [Allocator.received, Allocator.received, hrest]
    rcases exists_of_mapError_eq_mapError hresult with
      ⟨failure, failure', hfailed, hfailed', -⟩ | ⟨place, hplace, hplace'⟩
    · rw [hfailed, hfailed']
      rfl
    · rw [hplace, hplace']

omit [OutlinedJournal J] in
/-- Clients receive different plots, which nobody held. -/
theorem Coherent.nodup_received
    {a : Allocator J} (h : a.Coherent) (clients : List (String × UInt64)) :
  (a.received clients).Nodup ∧ ∀ place ∈ a.received clients, a.ledger.isAssigned place = false
  := by
  induction clients generalizing a with
  | nil => exact ⟨List.nodup_nil, List.forall_mem_nil _⟩
  | cons client clients ih =>
    obtain ⟨name, now⟩ := client
    obtain ⟨hnodup, hfree⟩ := ih (h.step (.call (.allocate name now)))
    obtain ⟨hkept, htaken⟩ := h.pooled.isAssigned_allocate name now
    have hfree' : ∀ place ∈ (a.allocate name now).state.received clients,
        a.ledger.isAssigned place = false := by
      intro place hplace
      rw [Bool.eq_false_iff]
      intro hassigned
      cases (hfree place hplace).symm.trans (hkept place hassigned)
    rw [Allocator.received]
    rcases hresult : (a.allocate name now).result with failure | place
    · exact ⟨hnodup, hfree'⟩
    · obtain ⟨hnew, hassigned⟩ := htaken place hresult
      have hnot : place ∉ (a.allocate name now).state.received clients := by
        intro hplace
        cases (hfree place hplace).symm.trans hassigned
      constructor
      · exact List.nodup_cons.2 ⟨hnot, hnodup⟩
      · exact List.forall_mem_cons.2 ⟨hnew, hfree'⟩

/-- Owners leave no trace in the placement.  Two runs from one start, in which calls differ in
the names of the owners and in the times, nothing befalls the journal that leaves bytes behind,
and the allocator is opened anew at the same points, give answers that are alike: the same
plots, the same results of releases and compactions, the same numbers, and failures that differ
at most in the number of bytes that a failing device has stored before the file was cut back.
In particular clients who allocate at once receive the same plots in whatever order the lock
admits them, and no plot twice. -/
theorem placement_ignores_owners
    {config : Config} {a : Allocator J} (h : Started config a) {events events' : List (Event J)}
    (hmild : ∀ event ∈ events, event.Mild)
    (hevents : events.map Event.outline = events'.map Event.outline) :
  (a.answers events).map Answer.outline = (a.answers events').map Answer.outline
    ∧ (a.run events).stats = (a.run events').stats
    ∧ ∀ clients order : List (String × UInt64),
      (order.map Prod.fst).Perm (clients.map Prod.fst) →
        (a.run events).received order = (a.run events').received clients
          ∧ ((a.run events).received order).Nodup
  := by
  obtain ⟨hcoherent, hclean⟩ := ReopenableJournal.coherent_of_started h
  have htidy : a.Tidy := ⟨hcoherent, hclean⟩
  have hself : a.Alike a := ⟨rfl, rfl, rfl, rfl⟩
  obtain ⟨hanswers, halike, htidy, htidy'⟩ := hself.run htidy htidy hmild hevents
  refine ⟨hanswers, halike.stats_eq htidy htidy', ?_⟩
  intro clients order horder
  have hlength := horder.length_eq
  rw [List.length_map, List.length_map] at hlength
  exact ⟨halike.received htidy htidy' hlength, (htidy.coherent.nodup_received order).1⟩

/-- A name that looks like lines of the log has no influence on the answers of a run with a
refused allocation, a release and a restart, nor on the plots that two clients receive
afterwards, which are the next two of the spiral. -/
theorem placement_ignores_owners_forged :
  let config : Config := { spacing := ⟨10, by decide⟩, radius := ⟨0, by decide⟩, storageDir := "." }
  let place : Coord := ⟨10, 0, by decide, by decide⟩
  let events (name : String) (now : UInt64) : List (Event FileJournal) :=
    [.call (.allocate name now), .hazard ⟨5, false⟩, .call (.allocate name now),
      .call (.release place now), .reopen config.spacing config.radius,
      .call (.allocate name now), .call .stats]
  let forged := "eve\n9;10;0;ORPHAN;\n9;20;0;CURSOR_ADVANCE;"
  let received : List Coord := [⟨10, 10, by decide, by decide⟩, ⟨0, 10, by decide, by decide⟩]
  ∃ a, Started config a
    ∧ (a.answers (events "ann" 1)).map Answer.outline
      = (a.answers (events forged 9)).map Answer.outline
    ∧ (a.run (events "ann" 1)).received [("carol", 2), ("dave", 3)] = received
    ∧ (a.run (events forged 9)).received [("dave", 10), ("carol", 11)] = received
  := by
  intro config place events forged received
  let settings : Settings :=
    { spacing := ⟨10, by decide, by decide⟩, exclusion := ⟨0⟩, storageDir := "." }
  let a := ofJournal settings (FileJournal.holding [])
  have hvalid : config.validate = .ok settings := Config.validate_of_no_exclusion (by decide) "."
  have hstarted : Started config a := FileJournal.started_holding hvalid rfl (by simp)
  have hmild : ∀ event ∈ events "ann" 1, event.Mild := by
    simp only [events, List.forall_mem_cons]
    exact ⟨trivial, rfl, trivial, trivial, trivial, trivial, trivial, by simp⟩
  have hsame : (events "ann" 1).map Event.outline = (events forged 9).map Event.outline := rfl
  have hplots : (a.run (events "ann" 1)).received [("carol", 2), ("dave", 3)] = received := by
    decide +kernel
  obtain ⟨hanswers, -, hreceived⟩ := placement_ignores_owners hstarted hmild hsame
  obtain ⟨horder, -⟩ := hreceived [("dave", 10), ("carol", 11)] [("carol", 2), ("dave", 3)]
    (List.Perm.swap "dave" "carol" [])
  exact ⟨a, hstarted, hanswers, hplots, horder.symm.trans hplots⟩

end Allocator

end IslandPlots
