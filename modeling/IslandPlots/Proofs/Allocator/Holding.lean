import IslandPlots.Proofs.Allocator.Run
import IslandPlots.Proofs.Ledger.Torn

/-!
# No plot is held by two

From the answer to an allocation on, the plot is its owner's in the ledger and in the log
(`Store.Secures`), also while bytes of a failed append are in the log, since these show
records of other plots only.  So every later state says that the owner holds the plot, opened
anew or not, and no other allocation gets it, until the plot is released or the log has
something of its release (`Allocator.held_until_released`).
-/

namespace IslandPlots

open LawfulJournal (Sound Stuck Clean held)

namespace Store

variable {J : Type} [Journal J] [LawfulJournal J]

/-- The ledger and a replay of the journal agree on the tenure of a plot. -/
structure Secures (place : Coord) (tenure : Tenure) (store : Store J) : Prop where
  known : store.ledger.tenure? place = some tenure
  logged : (Ledger.replay (held store.journal)).ledger.tenure? place = some tenure

namespace Secures

variable {place : Coord} {tenure : Tenure} {store : Store J} (h : store.Secures place tenure)

include h

/-- A store secures a plot also with another journal that holds the same lines. -/
theorem of_held_eq
    {after : J} (hheld : held after = held store.journal) :
  { store with journal := after }.Secures place tenure
  := by
  refine ⟨h.known, ?_⟩
  rw [hheld]
  exact h.logged

/-- An append of records of other plots leaves a plot secured. -/
theorem of_appended
    {records : List Record} (hbuilt : ∀ r ∈ records, r.Built)
    (hother : ∀ r ∈ records, r.kind = .advance ∨ r.place ≠ place) {directory : String}
    {result : Except Failure Unit} {after : Store J}
    (happended : Appended directory store records result after) :
  after.Secures place tenure
  := by
  cases happended with
  | rejected => exact h
  | acknowledged haccepts hsound hbefore hafter hheld =>
    constructor
    · exact (Ledger.tenure?_applyAll_of_forall hother).trans h.known
    · rw [hheld, Ledger.ledger_replay_append, Ledger.readable_map_line hbuilt]
      exact (Ledger.tenure?_applyAll_of_forall hother).trans h.logged
  | refused failure hsound hstuck hheld => exact h.of_held_eq hheld
  | torn failure k haccepts hsound hbefore hafter hheld =>
    refine ⟨h.known, ?_⟩
    rw [hheld, Ledger.ledger_replay_append, Record.readable_torn hbuilt]
    refine (Ledger.tenure?_applyAll_of_forall ?_).trans h.logged
    intro found hfound
    obtain ⟨r, hr, hkind, hplace⟩ := Record.mem_tornAll hfound
    rw [hkind, hplace]
    exact hother r hr

/-- A compaction leaves a plot secured that someone holds. -/
theorem of_compacted
    (hdistinct : store.ledger.Distinct) (hstanding : tenure.standing = .assigned)
    (howner : tenure.owner ≠ some "") {directory : String} {now : UInt64}
    {result : Except Failure Nat} {after : Store J}
    (hcompacted : Compacted directory store now result after) :
  after.Secures place tenure
  := by
  cases hcompacted with
  | acknowledged hsound hafter hheld =>
    obtain ⟨standing, owner, changed⟩ := tenure
    obtain rfl : standing = .assigned := hstanding
    have howner' : owner.filter (· ≠ "") = owner := by
      rcases owner with _ | name
      · rfl
      · exact Option.filter_some_pos (by simpa using howner)
    have hkept : ∀ base : Ledger, base.reservations = [] →
        (base.applyAll (store.ledger.snapshot now)).tenure? place
          = some ⟨.assigned, owner.filter (· ≠ ""), changed⟩ := by
      intro base hbase
      rw [Ledger.tenure?_snapshot hbase hdistinct, h.known]
      rfl
    rw [howner'] at hkept
    constructor
    · exact hkept _ rfl
    · rw [hheld, Ledger.ledger_replay,
        Ledger.readable_map_line fun r hr => Ledger.built_snapshot hr]
      exact hkept _ rfl
  | refused failure hsound hstuck hheld => exact h.of_held_eq hheld

/-- The store that the journal amounts to secures the plot. -/
theorem ofJournal
    {after : J} (hheld : held after = held store.journal) :
  (Store.ofJournal after).Secures place tenure
  := by
  have hlogged := h.logged
  rw [← hheld] at hlogged
  exact ⟨hlogged, hlogged⟩

/-- Somebody holds a plot that is secured for a holder. -/
theorem isAssigned
    (hstanding : tenure.standing = .assigned) :
  store.ledger.isAssigned place = true
  := by
  rw [Ledger.isAssigned_iff, Ledger.standing?_eq, h.known, Option.map_some, hstanding]

end Secures

end Store

namespace Allocator

variable {J : Type} [Journal J] [LawfulJournal J]

/-- The tenure that an allocation begins. -/
def allocated (name : String) (now : UInt64) : Tenure where
  standing := .assigned
  owner := if name = "" then none else some name
  changed := now

/-- A plot that may be handed out is not secured for a holder. -/
theorem ne_of_isFree
    {a : Allocator J} {place other : Coord} {tenure : Tenure}
    (hsecures : a.store.Secures place tenure) (hstanding : tenure.standing = .assigned)
    (hfree : a.isFree other = true) :
  other ≠ place
  := by
  rintro rfl
  have hassigned : a.ledger.isAssigned other = true := hsecures.isAssigned hstanding
  rw [isFree, hassigned] at hfree
  simp at hfree

namespace Coherent

variable {a : Allocator J} (h : a.Coherent)

include h

/-- An append that is acknowledged secures the plot of an assignment. -/
theorem secures_of_appended
    {name : String} {now : UInt64} {place : Coord} {moves : List Record}
    (hmoves : ∀ r ∈ moves, r.Built ∧ r.kind = .advance) {after : Store J}
    (happended : Store.Appended a.settings.storageDir a.store
      (.assign place (if name = "" then none else some name) now :: moves) (.ok ()) after) :
  after.Secures place (allocated name now)
  := by
  have hconsistent : after.Consistent a.settings.storageDir := by
    apply h.consistent.of_appended _ happended
    rw [List.forall_mem_cons]
    exact ⟨.assign .., fun r hr => (hmoves r hr).1⟩
  have htenure : (Record.assign place (if name = "" then none else some name) now).tenure
      = allocated name now := by
    change Tenure.mk .assigned (Option.filter _ _) now = _
    by_cases hname : name = "" <;> simp [allocated, hname]
  cases happended with
  | acknowledged haccepts hsound hbefore hafter hheld =>
    have hknown := Ledger.tenure?_applyAll_cons haccepts nofun fun r hr => .inl (hmoves r hr).2
    rw [htenure] at hknown
    exact ⟨hknown, hconsistent.ledger_eq hafter ▸ hknown⟩

/-- An allocation secures the plot that it returns. -/
theorem secures_of_allocate
    {name : String} {now : UInt64} {place : Coord}
    (hallocated : (a.allocate name now).result = .ok place) :
  (a.allocate name now).state.store.Secures place (allocated name now)
  := by
  rcases h.pooled.allocate_cases name now with
    ⟨failure, -, hresult, -⟩ | ⟨other, moves, -, -, hmoves, -, hresult, hstate⟩
  · cases hresult.symm.trans hallocated
  · have happended := Store.appended h.consistent.sound
      (.assign other (if name = "" then none else some name) now :: moves)
    rw [hresult] at hallocated
    rcases hwritten : (a.store.appendAll
      (.assign other (if name = "" then none else some name) now :: moves)).result with f | ⟨⟨⟩⟩
    · rw [hwritten] at hallocated
      cases hallocated
    · rw [hwritten] at hallocated happended
      obtain rfl : other = place := Except.ok.inj hallocated
      rw [hstate]
      exact h.secures_of_appended hmoves happended

variable {place : Coord} {tenure : Tenure} (hsecures : a.store.Secures place tenure)

include hsecures

/-- A release of a secured plot that fails and leaves the lines of the log leaves the plot
secured. -/
theorem secures_of_release
    {now : UInt64} (hresult : (a.release place now).result ≠ .ok true)
    (hlines : Journal.lines (a.release place now).state.store.journal
      = Journal.lines a.store.journal) :
  (a.release place now).state.store.Secures place tenure
  := by
  rcases h.pooled.release_cases place now with ⟨-, -, hstate⟩ | ⟨-, hwritten, hstate⟩
  · rw [hstate]
    exact hsecures
  · rw [hwritten] at hresult
    rw [hstate] at hlines ⊢
    have happended := Store.appended h.consistent.sound [.orphan place now]
    change Journal.lines (a.store.appendAll [.orphan place now]).state.journal = _ at hlines
    change (a.store.appendAll [.orphan place now]).state.Secures place tenure
    generalize (a.store.appendAll [.orphan place now]).result = result at happended hresult
    generalize (a.store.appendAll [.orphan place now]).state = after at happended hlines ⊢
    cases happended with
    | rejected => exact hsecures
    | acknowledged => exact absurd rfl hresult
    | refused failure hsound hstuck hheld => exact hsecures.of_held_eq hheld
    | torn failure k haccepts hsound hbefore hafter hheld =>
      apply hsecures.of_held_eq
      rw [LawfulJournal.lines_eq hsound, LawfulJournal.lines_eq h.consistent.sound] at hlines
      exact Except.ok.inj hlines

variable (hstanding : tenure.standing = .assigned)

include hstanding

/-- The holder of a secured plot is known. -/
theorem ownerOf_eq :
  a.isAssigned place = .ok true ∧ a.ownerOf place = .ok tenure.owner
  := by
  have hassigned : a.ledger.isAssigned place = true := hsecures.isAssigned hstanding
  obtain ⟨r, hfound, htenure⟩ := Option.map_eq_some_iff.1 hsecures.known
  have hfound' : a.ledger.find? place = some r := hfound
  unfold isAssigned ownerOf query
  simp only [h.alive, Bool.false_eq_true, if_false, Ledger.ownerOf, hassigned, if_true, hfound',
    Option.bind_some, ← htenure]
  exact ⟨trivial, rfl⟩

/-- No allocation returns a secured plot. -/
theorem result_allocate_ne
    (name : String) (now : UInt64) :
  (a.allocate name now).result ≠ .ok place
  := by
  intro hallocated
  rcases h.pooled.allocate_cases name now with
    ⟨failure, -, hresult, -⟩ | ⟨other, moves, -, hfree, -, -, hresult, -⟩
  · cases hresult.symm.trans hallocated
  · rw [hresult] at hallocated
    rcases hwritten : (a.store.appendAll
      (.assign other (if name = "" then none else some name) now :: moves)).result with f | ⟨⟨⟩⟩
    · rw [hwritten] at hallocated
      cases hallocated
    · rw [hwritten] at hallocated
      exact ne_of_isFree hsecures hstanding hfree (Except.ok.inj hallocated)

end Coherent

variable [ReopenableJournal J] [HazardousJournal J]

open ReopenableJournal (Started)

/-- The step is a release of the plot that is acknowledged or that leaves other lines in the
log. -/
def Event.Frees (place : Coord) (a : Allocator J) : Event J → Prop
  | .call (.release released now) => released = place
    ∧ ((a.release place now).result = .ok true
      ∨ Journal.lines (a.release place now).state.store.journal
        ≠ Journal.lines a.store.journal)
  | _ => False

namespace Coherent

variable {a : Allocator J} (h : a.Coherent) {place : Coord} {tenure : Tenure}
  (hsecures : a.store.Secures place tenure)

include h hsecures

/-- A step that does not free a plot leaves it secured for its holder. -/
theorem secures_step
    (hstanding : tenure.standing = .assigned) (howner : tenure.owner ≠ some "")
    {event : Event J} (hkept : ¬ event.Frees place a) :
  (a.step event).store.Secures place tenure
  := by
  cases event with
  | call call =>
    by_cases hrelease : ∃ now, call = .release place now
    · obtain ⟨now, rfl⟩ := hrelease
      obtain ⟨hresult, hlines⟩ := not_or.1 (not_and.1 hkept rfl)
      exact h.secures_of_release hsecures hresult (not_not.1 hlines)
    · change (a.answer call).2.store.Secures place tenure
      rcases h.pooled.answer_cases call with
        hstate | ⟨records, hbuilt, hplaces, -, hstate⟩ | ⟨now, hstate⟩
      · rw [hstate]
        exact hsecures
      · rw [hstate]
        apply hsecures.of_appended hbuilt _ (Store.appended h.consistent.sound records)
        intro r hr
        rcases hplaces r hr with hadvance | hfree | ⟨now, rfl⟩
        · exact .inl hadvance
        · exact .inr (ne_of_isFree hsecures hstanding hfree)
        · right
          rintro rfl
          exact hrelease ⟨now, rfl⟩
      · rw [hstate]
        exact hsecures.of_compacted h.distinct hstanding howner
          (Store.compacted h.consistent.sound now)
  | hazard hazard => exact hsecures.of_held_eq (HazardousJournal.held_befall hazard)
  | reopen spacing radius =>
    change (a.reopen spacing radius).state.store.Secures place tenure
    rcases h.reopen_cases spacing radius with ⟨settings, -, hstate⟩ | hstate
    · rw [hstate]
      exact hsecures.ofJournal ReopenableJournal.held_fresh
    · rw [hstate]
      exact hsecures

end Coherent

/-- No plot is held by two.  From the answer to an allocation on, whatever is called and
whatever befalls the journal, bytes of failed appends included, and however often the
allocator is opened anew under other settings, the plot is held by the owner it was
allocated to, and no other allocation returns it, as long as no release of the plot is
acknowledged or leaves something in the log. -/
theorem held_until_released
    {config : Config} {a : Allocator J} (h : Started config a) {earlier later : List (Event J)}
    {name : String} {now : UInt64} {place : Coord}
    (hallocated : ((a.run earlier).allocate name now).result = .ok place)
    (hkept : ∀ before event after, later = before ++ event :: after →
      ¬ event.Frees place (((a.run earlier).allocate name now).state.run before)) :
  let b := ((a.run earlier).allocate name now).state.run later
  b.isAssigned place = .ok true
    ∧ b.ownerOf place = .ok (if name = "" then none else some name)
    ∧ ∀ other now, (b.allocate other now).result ≠ .ok place
  := by
  have hearlier := (ReopenableJournal.coherent_of_started h).1.run earlier
  have hafter : ((a.run earlier).allocate name now).state.Coherent :=
    hearlier.step (.call (.allocate name now))
  have howner : (allocated name now).owner ≠ some "" := by
    unfold allocated
    split_ifs with hname
    · nofun
    · simpa using hname
  obtain ⟨hcoherent, hsecures⟩ := run_induct
    (P := fun b => b.Coherent ∧ b.store.Secures place (allocated name now))
    ⟨hafter, hearlier.secures_of_allocate hallocated⟩
    (fun before event after heq hbefore =>
      ⟨hbefore.1.step event,
        hbefore.1.secures_step hbefore.2 rfl howner (hkept before event after heq)⟩)
  obtain ⟨hassigned, hownerOf⟩ := hcoherent.ownerOf_eq hsecures rfl
  exact ⟨hassigned, hownerOf, hcoherent.result_allocate_ne hsecures rfl⟩

/-- A plot that was given up by one owner and allocated to another is the other's although
the next allocation leaves 20 bytes in the log and the allocator is opened anew with another
spacing. -/
theorem held_until_released_holding :
  let config : Config := { spacing := ⟨10, by decide⟩, radius := ⟨0, by decide⟩, storageDir := "." }
  let place : Coord := ⟨10, 0, by decide, by decide⟩
  let later : List (Event FileJournal) := [.hazard ⟨20, true⟩, .call (.allocate "carol" 4),
    .reopen ⟨7, by decide⟩ ⟨9, by decide⟩]
  ∃ a, Started config a ∧ (a.allocate "bob" 3).result = .ok place
    ∧ ((a.allocate "bob" 3).state.run later).ownerOf place = .ok (some "bob")
  := by
  intro config place later
  have hvalid := Config.validate_of_no_exclusion (show 1 ≤ config.spacing.1 by decide) "."
  have hunbroken := Store.unbroken_map_line [.assign place (some "alice") 1, .orphan place 2]
  have hstarted : Started config (ofJournal _ (FileJournal.holding _)) :=
    FileJournal.started_holding hvalid rfl hunbroken
  generalize ha : ofJournal _ (FileJournal.holding _) = a at hstarted
  have hallocated : (a.allocate "bob" 3).result = .ok place := by
    have hplace : (a.allocate "bob" 3).result.toOption = some place := by
      rw [← ha]
      decide +kernel
    rcases hresult : (a.allocate "bob" 3).result with failure | other
    · rw [hresult] at hplace
      cases hplace
    · rw [hresult] at hplace
      exact congrArg Except.ok (Option.some.inj hplace)
  have hkept : ∀ before event after, later = before ++ event :: after →
      ¬ event.Frees place ((a.allocate "bob" 3).state.run before) := by
    intro before event after heq
    have hmem : event ∈ later := by
      rw [heq]
      exact List.mem_append_right _ List.mem_cons_self
    simp only [later, List.mem_cons, List.not_mem_nil, or_false] at hmem
    rcases hmem with rfl | rfl | rfl <;> exact id
  obtain ⟨-, howner, -⟩ :=
    @held_until_released _ _ _ _ _ _ _ hstarted [] later _ _ _ hallocated hkept
  exact ⟨a, hstarted, hallocated, howner⟩

end Allocator

end IslandPlots
