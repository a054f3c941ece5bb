import IslandPlots.Proofs.Allocator.Run
import IslandPlots.Proofs.Ledger.Queue
import Mathlib.Data.List.Infix

/-!
# Plots are reused in order

Nothing is assumed of the journal here: it may acknowledge, refuse or lose what it likes, and
become another one between two calls.  Every call leaves an allocator the pool of its ledger,
and does to the ledger what one operation can do (`Allocator.Pooled.move_eq`).  So the pool is
the queue of orphans without those inside the exclusion, an allocation takes the plot that has
waited longest, and a plot of the spiral is always a new one
(`Allocator.pool_follows_orphans`).
-/

namespace IslandPlots

namespace Allocator

variable {J : Type} [Journal J]

/-! ### Moves -/

/-- A step of a run in which anything can happen to the journal. -/
inductive Move (J : Type) where
  | call (call : Call)
  /-- The journal becomes another one. -/
  | journal (journal : J)

/-- The allocator with another journal. -/
def onJournal (a : Allocator J) (journal : J) : Allocator J :=
  { a with store := { a.store with journal := journal } }

omit [Journal J] in
/-- The last journal counts. -/
@[simp]
theorem onJournal_onJournal (a : Allocator J) (first second : J) :
  (a.onJournal first).onJournal second = a.onJournal second
  := rfl

/-- The allocator after a move. -/
def move (a : Allocator J) : Move J → Allocator J
  | .call call => (a.answer call).2
  | .journal journal => a.onJournal journal

/-- The allocator after some moves. -/
def play (a : Allocator J) (moves : List (Move J)) : Allocator J :=
  moves.foldl move a

/-- The allocator after moves and others after them. -/
@[simp]
theorem play_append (a : Allocator J) (before after : List (Move J)) :
  a.play (before ++ after) = (a.play before).play after
  := List.foldl_append

/-- What each move keeps is kept by all of them, if it may look at where they begin. -/
theorem play_induct
    {P : Allocator J → Prop} {a : Allocator J} {moves : List (Move J)} (ha : P a)
    (hstep : ∀ before m after, moves = before ++ m :: after → P (a.play before) →
      P ((a.play before).move m)) :
  P (a.play moves)
  := by
  induction moves generalizing a with
  | nil => exact ha
  | cons m moves ih =>
    apply ih (hstep [] m moves rfl ha)
    intro before other after heq
    exact hstep (m :: before) other after (by rw [heq, List.cons_append])

/-! ### What a move does -/

/-- What an append of an assignment does to the ledger. -/
theorem next_appendAll_assign
    (store : Store J) {place : Coord} {owner : Option String} {now : UInt64}
    {moves : List Record} (hmoves : ∀ r ∈ moves, r.kind = .advance) :
  store.ledger.Next (store.appendAll (.assign place owner now :: moves)).state.ledger
  := by
  rcases store.appendAll_cases (.assign place owner now :: moves) with
    ⟨failure, journal, -, hstate⟩ | ⟨haccepts, -, journal, hstate⟩
  · rw [hstate]
    exact .same
  · rw [hstate]
    exact .assign hmoves haccepts

/-- What an append of a loss does to the ledger. -/
theorem next_appendAll_orphan
    (store : Store J) (place : Coord) (now : UInt64) :
  store.ledger.Next (store.appendAll [.orphan place now]).state.ledger
  := by
  rcases store.appendAll_cases [.orphan place now] with
    ⟨failure, journal, -, hstate⟩ | ⟨haccepts, -, journal, hstate⟩
  · rw [hstate]
    exact .same
  · rw [hstate]
    exact .orphan haccepts

/-- What a compaction does to the ledger. -/
theorem next_compact
    (store : Store J) (now : UInt64) :
  store.ledger.Next (store.compact now).state.ledger
  := by
  rcases store.compact_cases now with ⟨failure, journal, -, hstate⟩ | ⟨-, journal, hstate⟩
  · rw [hstate]
    exact .same
  · rw [hstate]
    exact .compact now

namespace Pooled

variable {a : Allocator J} (h : a.Pooled)

include h

/-- A move replaces the store, whose ledger goes one operation on, and leaves the pool that
belongs to it. -/
theorem move_eq
    (m : Move J) :
  ∃ store, a.move m = a.withStore store ∧ a.ledger.Next store.ledger
  := by
  have hsame := h.withStore_store
  cases m with
  | call call =>
    cases call with
    | allocate name now =>
      rcases h.allocate_cases name now with
        ⟨-, -, -, hstate⟩ | ⟨place, moves, -, -, hmoves, -, -, hstate⟩
      · exact ⟨a.store, hstate.trans hsame.symm, .same⟩
      · exact ⟨_, hstate, next_appendAll_assign _ fun r hr => (hmoves r hr).2⟩
    | release place now =>
      rcases h.release_cases place now with ⟨-, -, hstate⟩ | ⟨-, -, hstate⟩
      · exact ⟨a.store, hstate.trans hsame.symm, .same⟩
      · exact ⟨_, hstate, next_appendAll_orphan _ place now⟩
    | compact now => exact ⟨_, (h.compact_eq now).2, next_compact _ now⟩
    | ownerOf | isAssigned | stats => exact ⟨a.store, hsame.symm, .same⟩
  | journal journal =>
    refine ⟨{ a.store with journal := journal }, ?_, .same⟩
    exact (congrArg (onJournal · journal) hsame).symm

/-- A move leaves an allocator the pool of its ledger. -/
theorem move
    (m : Move J) :
  (a.move m).Pooled
  := by
  obtain ⟨store, hstate, hnext⟩ := h.move_eq m
  rw [hstate]
  exact ⟨hnext.distinct h.distinct, rfl, h.alive⟩

/-- Moves leave an allocator the pool of its ledger. -/
theorem play
    (moves : List (Move J)) :
  (a.play moves).Pooled
  := play_induct h fun _ m _ _ hbefore => hbefore.move m

/-- Moves keep the settings. -/
theorem settings_play
    (moves : List (Move J)) :
  (a.play moves).settings = a.settings
  := by
  refine play_induct (P := fun b => b.settings = a.settings) rfl ?_
  intro before m after _ hbefore
  obtain ⟨store, hstate, -⟩ := (h.play before).move_eq m
  rw [hstate]
  exact hbefore

/-- Moves keep the order of revisions. -/
theorem ordered_play
    (hordered : a.ledger.Ordered) (moves : List (Move J)) :
  (a.play moves).ledger.Ordered
  := by
  refine play_induct (P := fun b => b.ledger.Ordered) hordered ?_
  intro before m after _ hbefore
  obtain ⟨store, hstate, hnext⟩ := (h.play before).move_eq m
  rw [hstate]
  exact hnext.ordered hbefore

/-- Moves forget no plot. -/
theorem tenure?_play_ne_none
    {place : Coord} (hknown : a.ledger.tenure? place ≠ none) (moves : List (Move J)) :
  (a.play moves).ledger.tenure? place ≠ none
  := by
  refine play_induct (P := fun b => b.ledger.tenure? place ≠ none) hknown ?_
  intro before m after _ hbefore
  have hpooled := h.play before
  obtain ⟨store, hstate, hnext⟩ := hpooled.move_eq m
  rw [hstate]
  exact hnext.tenure?_ne_none hpooled.distinct hbefore

/-- Moves let no plot pass one that waits throughout. -/
theorem ahead_play
    {place other : Coord} (hahead : a.ledger.Ahead place other) {moves : List (Move J)}
    (hwaits : ∀ before after, moves = before ++ after →
      (a.play before).ledger.standing? place = some .orphaned) :
  (a.play moves).ledger.Ahead place other
  := by
  refine play_induct (P := fun b => b.ledger.Ahead place other) hahead ?_
  intro before m after hmoves hbefore
  have hpooled := h.play before
  have hafter := hwaits (before ++ [m]) after (by rw [hmoves, List.append_assoc]; rfl)
  rw [play_append] at hafter
  obtain ⟨store, hstate, hnext⟩ := hpooled.move_eq m
  have hwaiting : store.ledger.standing? place = some .orphaned := by
    change ((a.play before).move m).ledger.standing? place = _ at hafter
    rwa [hstate] at hafter
  rw [hstate]
  apply hnext.ahead hpooled.distinct hbefore
  exact (hnext.distinct hpooled.distinct).mem_orphans.2 hwaiting

/-! ### The plot of an allocation -/

/-- An allocation assigns the first plot of the pool as soon as the journal acknowledges it. -/
theorem result_allocate
    {place : Coord} (hhead : a.pool.queue.head? = some place) (name : String) (now : UInt64) :
  let record := Record.assign place (if name = "" then none else some name) now
  let written := Journal.append a.store.journal [record.line]
  (a.allocate name now).result = match written.result with
    | .ok () => .ok place
    | .error fault => .error (.storage (Journal.location written.state) fault)
  := by
  obtain ⟨queue, hqueue⟩ := List.head?_eq_some_iff.1 hhead
  have hfree := h.isFree_of_mem (hqueue ▸ List.mem_cons_self)
  have haccepts : a.store.ledger.Accepts
      [.assign place (if name = "" then none else some name) now] :=
    accepts_of_isFree hfree _ now (List.forall_mem_nil _)
  rw [(h.allocate_of_cons hqueue name now).1, Store.appendAll_of_accepts haccepts]
  simp only [List.map_cons, List.map_nil]
  rcases (Journal.append a.store.journal _).result with fault | ⟨⟨⟩⟩ <;> rfl

omit [Journal J] in
/-- The first plot of the pool is the orphan outside the exclusion that was given up
first. -/
theorem head?_queue
    (hordered : a.ledger.Ordered) {r : Reservation} (hr : r ∈ a.ledger.orphanReservations)
    (houtside : a.settings.exclusion.contains r.place = false)
    (holdest : ∀ other ∈ a.ledger.orphanReservations,
      a.settings.exclusion.contains other.place = false → r.revision ≤ other.revision) :
  a.pool.queue.head? = some r.place
  := by
  rw [h.queue_eq, Ledger.orphans, List.filter_map, List.head?_map]
  rcases hwaiting : a.ledger.orphanReservations.filter
    ((fun place => !a.settings.exclusion.contains place) ∘ (·.place)) with _ | ⟨first, rest⟩
  · have := List.filter_eq_nil_iff.1 hwaiting r hr
    simp [houtside] at this
  · have hmem : r ∈ first :: rest := by
      rw [← hwaiting, List.mem_filter]
      exact ⟨hr, by simpa using houtside⟩
    have hincreasing : (first :: rest).Pairwise fun r other => r.revision < other.revision := by
      rw [← hwaiting]
      exact (hordered.increasing.filter _).filter _
    rcases List.mem_cons.1 hmem with rfl | hlater
    · rw [hwaiting]
      rfl
    · have hfirst : first ∈ a.ledger.orphanReservations.filter
          ((fun place => !a.settings.exclusion.contains place) ∘ (·.place)) := by
        rw [hwaiting]
        exact List.mem_cons_self
      obtain ⟨hfirst, hout⟩ := List.mem_filter.1 hfirst
      have hle := holdest first hfirst (by simpa using hout)
      have hlt := List.rel_of_pairwise_cons hincreasing hlater
      omega

/-- Of two plots that wait, the one that was given up first is handed out first. -/
theorem result_allocate_ne
    {place other : Coord} (hahead : a.ledger.Ahead place other) (hne : place ≠ other)
    (houtside : a.settings.exclusion.contains place = false) (name : String) (now : UInt64) :
  (a.allocate name now).result ≠ .ok other
  := by
  intro hallocated
  have hhead : a.pool.queue.head? ≠ some other := by
    rw [h.queue_eq]
    apply hahead.head?_ne hne
    rw [houtside]
    rfl
  rcases hqueue : a.pool.queue with _ | ⟨first, queue⟩
  · obtain ⟨front, back, horphans, -⟩ := hahead
    have hmem : place ∈ a.pool.queue := by
      rw [h.queue_eq, List.mem_filter, horphans]
      exact ⟨List.mem_append_right _ List.mem_cons_self, by rw [houtside]; rfl⟩
    rw [hqueue] at hmem
    cases hmem
  · rw [hqueue, List.head?_cons] at hhead
    have hfirst : a.pool.queue.head? = some first := by
      rw [hqueue]
      rfl
    rw [h.result_allocate hfirst] at hallocated
    split at hallocated
    · exact hhead (congrArg some (Except.ok.inj hallocated))
    · cases hallocated

/-- A plot that waits throughout is handed out before every plot that did not wait when its
waiting began. -/
theorem result_allocate_play_ne
    {place other : Coord} (houtside : a.settings.exclusion.contains place = false)
    (hother : a.ledger.standing? other ≠ some .orphaned) {moves : List (Move J)}
    (hwaits : ∀ before after, moves = before ++ after →
      (a.play before).ledger.standing? place = some .orphaned)
    (name : String) (now : UInt64) :
  ((a.play moves).allocate name now).result ≠ .ok other
  := by
  have hplace : a.ledger.standing? place = some .orphaned := hwaits [] moves rfl
  have hne : place ≠ other := by
    rintro rfl
    exact hother hplace
  have hahead : a.ledger.Ahead place other :=
    Ledger.ahead_of_mem (h.distinct.mem_orphans.2 hplace)
      (fun hmem => hother (h.distinct.mem_orphans.1 hmem))
  apply (h.play moves).result_allocate_ne (h.ahead_play hahead hwaits) hne
  rw [h.settings_play]
  exact houtside

/-- A plot of the spiral had no reservation at any time before. -/
theorem tenure?_play_of_extend
    {moves : List (Move J)} {place : Coord} (hextend : (a.play moves).choose.1 = .extend place)
    {before after : List (Move J)} (hmoves : moves = before ++ after) :
  (a.play before).ledger.tenure? place = none
  := by
  subst hmoves
  have hnew := (h.play _).tenure?_of_extend hextend
  rw [play_append] at hnew
  by_contra hknown
  exact (h.play before).tenure?_play_ne_none hknown after hnew

omit [Journal J] in
/-- The numbers that describe an allocator count the orphans inside the exclusion besides the
pool. -/
theorem stats_eq :
  a.stats = .ok a.counts
    ∧ a.counts.pooled + (a.ledger.orphans.filter a.settings.exclusion.contains).length
      = a.counts.orphaned
  := by
  constructor
  · unfold stats query
    rw [if_neg h.not_poisoned]
  · change a.pool.queue.length + _ = a.ledger.orphanedCount
    rw [h.queue_eq, Ledger.orphanedCount_eq, Nat.add_comm]
    exact (List.length_eq_length_filter_add _).symm

end Pooled

/-- No freed plot is lost, duplicated or reordered, whatever was called and whatever the
journal did.  The pool is the queue of orphans without those inside the exclusion; its plots
are different and nobody holds them, so none is ever skipped.  An allocation takes the plot
whose reservation as an orphan is the oldest outside the exclusion, as soon as the journal
acknowledges it; so it never takes a plot while another one waits that was given up before.  A
plot of the spiral never had a reservation, neither in the run nor in the log from which the
allocator was loaded.  The pool has as many plots as there are orphans outside the
exclusion. -/
theorem pool_follows_orphans
    {settings : Settings} {journal : J} {a : Allocator J} {notices : List Notice}
    (h : load settings journal = .ok (a, notices)) (moves : List (Move J)) :
  let b := a.play moves
  let outside := fun place => !settings.exclusion.contains place
  (b.pool.queue = b.ledger.orphans.filter outside
      ∧ b.ledger.orphanReservations.Pairwise (fun r other => r.revision < other.revision)
      ∧ b.pool.queue.Nodup ∧ (∀ place ∈ b.pool.queue, b.ledger.isAssigned place = false)
      ∧ b.pool.takeUsable b.isFree = b.pool.take)
    ∧ (∀ r ∈ b.ledger.orphanReservations, outside r.place = true →
        (∀ other ∈ b.ledger.orphanReservations, outside other.place = true →
          r.revision ≤ other.revision) →
        ∀ name now,
          let record := Record.assign r.place (if name = "" then none else some name) now
          let written := Journal.append b.store.journal [record.line]
          (b.allocate name now).result = match written.result with
            | .ok () => .ok r.place
            | .error fault => .error (.storage (Journal.location written.state) fault))
    ∧ (∀ before after, moves = before ++ after → ∀ place other, outside place = true →
        (a.play before).ledger.standing? other ≠ some .orphaned →
        (∀ middle rest, after = middle ++ rest →
          (a.play (before ++ middle)).ledger.standing? place = some .orphaned) →
        ∀ name now, (b.allocate name now).result ≠ .ok other)
    ∧ (∀ place, b.choose.1 = .extend place →
        (∀ before after, moves = before ++ after → (a.play before).ledger.find? place = none)
        ∧ ∀ lines line r, Journal.lines journal = .ok lines → line ∈ lines →
          Record.parse line = .ok r → r.kind = .assign → r.place ≠ place)
    ∧ ∃ stats, b.stats = .ok stats
        ∧ stats.pooled + (b.ledger.orphans.filter settings.exclusion.contains).length
          = stats.orphaned
  := by
  intro b outside
  obtain ⟨hstart, hsettings, lines, hlines, hledger⟩ := of_load h
  have hpooled : b.Pooled := hstart.play moves
  have hsame : b.settings = settings := (hstart.settings_play moves).trans hsettings
  have hordered : b.ledger.Ordered :=
    hstart.ordered_play (by rw [hledger]; exact Ledger.ordered_replay lines) moves
  have hqueue : b.pool.queue = b.ledger.orphans.filter outside := by
    rw [hpooled.queue_eq, hsame]
  refine ⟨⟨hqueue, hordered.increasing.filter _, b.pool.sound.nodup,
    fun place hplace => (isFree_iff.1 (hpooled.isFree_of_mem hplace)).2, hpooled.takeUsable_eq⟩,
    ?_, ?_, ?_, b.counts, hpooled.stats_eq.1, hsame ▸ hpooled.stats_eq.2⟩
  · intro r hr houtside holdest name now
    apply hpooled.result_allocate
    apply hpooled.head?_queue hordered hr
    · rw [hsame]
      simpa [outside] using houtside
    · intro other hother hout
      rw [hsame] at hout
      exact holdest other hother (by simpa [outside] using hout)
  · rintro before after rfl place other houtside hother hwaits name now
    simp only [b, play_append] at hwaits ⊢
    apply (hstart.play before).result_allocate_play_ne _ hother hwaits
    rw [hstart.settings_play, hsettings]
    simpa [outside] using houtside
  · intro place hextend
    constructor
    · intro before after heq
      exact Option.map_eq_none_iff.1 (hstart.tenure?_play_of_extend hextend heq)
    · rintro other line r hother hline hparse hk rfl
      obtain rfl : lines = other := Except.ok.inj (hlines.symm.trans hother)
      have hmem : r ∈ Ledger.readable lines := by
        apply List.mem_filterMap.2
        use line, hline
        rw [hparse]
        rfl
      have hstartnew : a.ledger.tenure? r.place = none :=
        hstart.tenure?_play_of_extend hextend (List.nil_append moves).symm
      rw [hledger, Ledger.ledger_replay] at hstartnew
      exact Ledger.tenure?_applyAll_of_assign hmem hk hstartnew

/-- Of two plots that are released one after the other, the second is not handed out before
the first, also when the journal refuses the first attempt. -/
theorem pool_follows_orphans_two :
  let settings : Settings :=
    { spacing := ⟨10, by decide, by decide⟩, exclusion := ⟨0⟩, storageDir := "." }
  let first : Coord := ⟨10, 0, by decide, by decide⟩
  let second : Coord := ⟨20, 0, by decide, by decide⟩
  let records := [Record.assign first (some "ann") 1, Record.assign second (some "bob") 2]
  let journal : MemoryJournal := { lines := records.map Record.line }
  let moves : List (Move MemoryJournal) := [.call (.release second 3), .call (.release first 4),
    .journal { lines := [], refusing := true }, .call (.allocate "carol" 5),
    .journal { lines := [] }]
  ∃ a notices, load settings journal = .ok (a, notices)
    ∧ (a.play moves).pool.queue = [second, first]
    ∧ ((a.play moves).allocate "dave" 6).result ≠ .ok first
  := by
  intro settings first second records journal moves
  have hbuilt : ∀ r ∈ records, r.Built := by
    simp only [records, List.forall_mem_cons]
    exact ⟨.assign .., .assign .., List.forall_mem_nil _⟩
  obtain ⟨notices, hload⟩ := Allocator.load_eq (journal.sound ".") settings
  rw [ofJournal_of_held rfl hbuilt rfl] at hload
  obtain ⟨-, -, hfirst, -⟩ := pool_follows_orphans hload moves
  refine ⟨_, notices, hload, by decide, ?_⟩
  apply hfirst [.call (.release second 3)] moves.tail rfl second first (by decide) (by decide)
  intro middle rest heq
  have hmem : middle ∈ moves.tail.inits := (List.mem_inits _ _).2 ⟨rest, heq.symm⟩
  clear heq
  revert middle
  decide

end Allocator

end IslandPlots
