import IslandPlots.Allocator
import IslandPlots.Proofs.Ledger.Replay
import IslandPlots.Proofs.Ledger.Snapshot
import IslandPlots.Proofs.Pool
import IslandPlots.Proofs.Spiral.Order
import IslandPlots.Proofs.Store.Writing

/-!
# What operations do to an allocator

The pool of an allocator is always that of its ledger, whatever the journal does
(`Allocator.Pooled`).  So an allocation takes the head of the pool, and only when there is
none the next plot of the spiral (`Allocator.Pooled.choose_eq`), and what an operation does to
an allocator is what it does to the store (`Allocator.Pooled.allocate_cases`,
`Allocator.Pooled.release_eq`, `Allocator.Pooled.compact_eq`): an append leaves the ledger or
takes its records in (`Allocator.ledger_appended`).
-/

namespace IslandPlots

namespace Allocator

section

variable {J : Type}

/-- The allocator with another store, and the pool that belongs to it. -/
def withStore (a : Allocator J) (store : Store J) : Allocator J :=
  { a with store := store, pool := Pool.ofLedger store.ledger a.settings.exclusion }

/-- The plot that the next allocation assigns: the first one of the pool, or the next one of
the spiral when the pool is empty. -/
def offer (a : Allocator J) : Except Failure Coord :=
  match a.pool.queue with
  | place :: _ => .ok place
  | [] => a.nextCandidate

/-- A candidate is what the search along the spiral finds. -/
theorem seek_of_nextCandidate
    {a : Allocator J} {place : Coord} (h : a.nextCandidate = .ok place) :
  Coord.seek a.settings.spacing a.isFree (searchStart a.settings a.ledger.cursor) = .ok place
  := by
  unfold nextCandidate at h
  rcases hseek : Coord.seek a.settings.spacing a.isFree
    (searchStart a.settings a.ledger.cursor) with edge | found
  · rw [hseek] at h
    cases h
  · rw [hseek] at h
    cases h
    rfl

/-- A plot of the spiral that is a candidate may be handed out. -/
theorem isFree_of_nextCandidate
    {a : Allocator J} {place : Coord} (h : a.nextCandidate = .ok place) :
  a.isFree place = true
  := Coord.wanted_of_seek (seek_of_nextCandidate h)

/-- A plot that may be handed out lies outside the exclusion, and nobody holds it. -/
theorem isFree_iff {a : Allocator J} {place : Coord} :
  a.isFree place = true
    ↔ a.settings.exclusion.contains place = false ∧ a.ledger.isAssigned place = false
  := by
  rw [isFree, Bool.and_eq_true, Bool.not_eq_true', Bool.not_eq_true']

/-- A plot that may be handed out can be assigned, also when the cursor is moved with the
assignment. -/
theorem accepts_of_isFree
    {a : Allocator J} {place : Coord} (h : a.isFree place = true) (owner : Option String)
    (now : UInt64) {moves : List Record} (hmoves : ∀ r ∈ moves, r.kind = .advance) :
  a.ledger.Accepts (.assign place owner now :: moves)
  := by
  apply Ledger.accepts_assign _ hmoves
  rw [Ne, ← Ledger.isAssigned_iff, (isFree_iff.1 h).2]
  nofun

/-- A plot that somebody holds can be given up. -/
theorem accepts_of_isAssigned
    {a : Allocator J} {place : Coord} (h : a.ledger.isAssigned place = true) (now : UInt64) :
  a.ledger.Accepts [.orphan place now]
  := by
  obtain ⟨after, happly⟩ : ∃ after, a.ledger.apply (.orphan place now) = .ok after :=
    Ledger.exists_apply (Ledger.allows_orphan.2 (Ledger.isAssigned_iff.1 h))
  exact Ledger.accepts_cons.2 ⟨after, happly, rfl⟩

/-- No plot has two reservations, the pool is that of the ledger, and no caller died. -/
structure Pooled (a : Allocator J) : Prop where
  distinct : a.ledger.Distinct
  pool : a.pool = Pool.ofLedger a.ledger a.settings.exclusion
  alive : a.poisoned = false

namespace Pooled

variable {a : Allocator J} (h : a.Pooled)

include h

/-- An allocator has the pool that belongs to its store. -/
theorem withStore_store :
  a.withStore a.store = a
  := by
  rw [Allocator.withStore]
  change { a with pool := Pool.ofLedger a.ledger a.settings.exclusion } = a
  rw [← h.pool]

/-- The plots of the pool are the orphans outside the exclusion. -/
theorem queue_eq :
  a.pool.queue = a.ledger.orphans.filter fun place => !a.settings.exclusion.contains place
  := by
  rw [h.pool, Pool.queue_ofLedger h.distinct]

/-- The lock is not poisoned. -/
theorem not_poisoned :
  ¬ a.poisoned = true
  := by
  rw [h.alive]
  decide

/-- The plots in the pool may be handed out. -/
theorem isFree_of_mem {place : Coord} (hplace : place ∈ a.pool.queue) :
  a.isFree place = true
  := by
  rw [h.pool, Pool.mem_ofLedger h.distinct] at hplace
  obtain ⟨hstanding, hexcluded⟩ := hplace
  have hassigned : a.ledger.isAssigned place = false := by
    rw [Bool.eq_false_iff, Ne, Ledger.isAssigned_iff, hstanding]
    nofun
  exact isFree_iff.2 ⟨hexcluded, hassigned⟩

/-- The pool is never searched: its first plot may be handed out. -/
theorem takeUsable_eq :
  a.pool.takeUsable a.isFree = a.pool.take
  := by
  rcases hqueue : a.pool.queue with _ | ⟨place, queue⟩
  · rw [Pool.takeUsable_of_nil hqueue, Pool.take_of_nil hqueue]
  · rw [Pool.takeUsable_of_cons hqueue, if_pos (h.isFree_of_mem (hqueue ▸ List.mem_cons_self))]

/-- An allocation takes the head of the pool; only when the pool is empty it goes on along the
spiral. -/
theorem choose_eq :
  a.choose = match a.pool.queue with
    | place :: _ => (.reuse place, { a with pool := a.pool.take.2 })
    | [] =>
      match a.nextCandidate with
      | .ok place => (.extend place, a)
      | .error failure => (.none failure, a)
  := by
  unfold choose
  rw [h.takeUsable_eq]
  generalize htake : a.pool.take = taken
  rcases hqueue : a.pool.queue with _ | ⟨place, queue⟩
  · obtain rfl : taken = (none, a.pool) := htake.symm.trans (Pool.take_of_nil hqueue)
    rfl
  · obtain rfl : taken = (some place, a.pool.take.2) :=
      htake.symm.trans (Pool.take_of_cons hqueue)
    rfl

/-- An allocation goes on along the spiral when the pool is empty and there is a candidate. -/
theorem choose_eq_extend {place : Coord} :
  a.choose.1 = .extend place ↔ a.pool.queue = [] ∧ a.nextCandidate = .ok place
  := by
  rw [h.choose_eq]
  rcases a.pool.queue with _ | ⟨first, queue⟩
  · rcases a.nextCandidate with failure | found <;> simp
  · simp

/-- A plot of the spiral is a new one. -/
theorem tenure?_of_extend
    {place : Coord} (hchoose : a.choose.1 = .extend place) :
  a.ledger.tenure? place = none
  := by
  obtain ⟨hqueue, hnext⟩ := h.choose_eq_extend.1 hchoose
  obtain ⟨houtside, hassigned⟩ := isFree_iff.1 (isFree_of_nextCandidate hnext)
  rcases hknown : a.ledger.tenure? place with _ | ⟨_ | _, owner, changed⟩
  · rfl
  · rw [← Bool.not_eq_true, Ledger.isAssigned_iff, Ledger.standing?_eq, hknown] at hassigned
    exact absurd rfl hassigned
  · have hwaits : place ∈ a.pool.queue := by
      rw [h.pool, Pool.mem_ofLedger h.distinct, Ledger.standing?_eq, hknown]
      exact ⟨rfl, houtside⟩
    rw [hqueue] at hwaits
    cases hwaits

end Pooled

end

variable {J : Type} [Journal J]

/-- A loaded allocator has the given settings, the ledger that the journal amounts to, and the
pool of that ledger. -/
theorem of_load
    {settings : Settings} {journal : J} {a : Allocator J} {notices : List Notice}
    (h : load settings journal = .ok (a, notices)) :
  a.Pooled ∧ a.settings = settings
    ∧ ∃ lines, Journal.lines journal = .ok lines ∧ a.ledger = (Ledger.replay lines).ledger
  := by
  unfold load Store.load at h
  rcases hlines : Journal.lines journal with fault | lines
  · rw [hlines] at h
    cases h
  · rw [hlines] at h
    cases h
    exact ⟨⟨Ledger.distinct_replay lines, rfl, rfl⟩, rfl, lines, rfl, rfl⟩

/-- An append fails and leaves the ledger of the allocator, or its records pass the check and are
taken in. -/
theorem ledger_appended (a : Allocator J) (records : List Record) :
  let written := a.store.appendAll records
  (∃ failure, written.result = .error failure ∧ (a.withStore written.state).ledger = a.ledger)
    ∨ (written.result = .ok () ∧ a.ledger.Accepts records
      ∧ (a.withStore written.state).ledger = a.ledger.applyAll records)
  := by
  intro written
  rcases hwritten : written.result with failure | ⟨⟨⟩⟩
  · exact .inl ⟨failure, rfl, Store.ledger_appendAll_of_error hwritten⟩
  · exact .inr ⟨rfl, Store.ledger_appendAll_of_ok hwritten⟩

namespace Pooled

variable {a : Allocator J} (h : a.Pooled)

include h

/-- What an append of an assignment does to the pool when it succeeds: the plot leaves
it. -/
theorem queue_assign
    {place : Coord} {owner : Option String} {now : UInt64} {moves : List Record}
    (hmoves : ∀ r ∈ moves, r.kind = .advance)
    (hresult : (a.store.appendAll (.assign place owner now :: moves)).result = .ok ()) :
  (Pool.ofLedger (a.store.appendAll (.assign place owner now :: moves)).state.ledger
      a.settings.exclusion).queue
    = a.pool.queue.filter (· ≠ place)
  := by
  have hdistinct : a.store.ledger.Distinct := h.distinct
  obtain ⟨haccepts, hledger⟩ := Store.ledger_appendAll_of_ok hresult
  rw [hledger, Pool.queue_ofLedger_assign hdistinct hmoves haccepts, h.pool]
  rfl

/-- What an append of a loss does to the pool when it succeeds: the plot joins it, unless it
lies inside the exclusion. -/
theorem pool_orphan
    {place : Coord} {now : UInt64}
    (hresult : (a.store.appendAll [.orphan place now]).result = .ok ()) :
  Pool.ofLedger (a.store.appendAll [.orphan place now]).state.ledger a.settings.exclusion
    = if a.settings.exclusion.contains place then a.pool else a.pool.put place
  := by
  have hdistinct : a.store.ledger.Distinct := h.distinct
  obtain ⟨haccepts, hledger⟩ := Store.ledger_appendAll_of_ok hresult
  rw [hledger, Pool.ofLedger_orphan hdistinct haccepts, h.pool]
  rfl

/-- What a failed append does to the pool: nothing. -/
theorem pool_of_error
    {records : List Record} {failure : Failure}
    (hresult : (a.store.appendAll records).result = .error failure) :
  Pool.ofLedger (a.store.appendAll records).state.ledger a.settings.exclusion = a.pool
  := by
  rw [Store.ledger_appendAll_of_error hresult, h.pool]
  rfl

/-- An orphan is assigned, and leaves the pool if that succeeds. -/
theorem reuse_eq
    {place : Coord} {queue : List Coord} (hqueue : a.pool.queue = place :: queue)
    (owner : Option String) (now : UInt64) :
  let written := a.store.appendAll [.assign place owner now]
  let done := ({ a with pool := a.pool.take.2 } : Allocator J).reuse place owner now
  done.result = written.result.map (fun _ => place) ∧ done.state = a.withStore written.state
  := by
  simp only [reuse, Store.assign, Store.append, Allocator.withStore]
  rcases hresult : (a.store.appendAll [.assign place owner now]).result with failure | ⟨⟨⟩⟩
  · rw [h.pool_of_error hresult]
    exact ⟨rfl, by simp only [Outcome.fail, Pool.restoreFront_take hqueue]⟩
  · have htaken : Pool.ofLedger (a.store.appendAll [.assign place owner now]).state.ledger
        a.settings.exclusion = a.pool.take.2 := by
      apply Pool.eq_of_queue
      rw [h.queue_assign (by simp) hresult, Pool.queue_take_eq_filter hqueue]
    rw [htaken]
    exact ⟨rfl, rfl⟩

/-- A plot of the spiral is assigned when the pool is empty, which it stays. -/
theorem extend_eq
    (hqueue : a.pool.queue = []) (place : Coord) (owner : Option String) (now : UInt64) :
  let written := a.store.appendAll [.assign place owner now, .advance place now]
  (a.extend place owner now).result = written.result.map (fun _ => place)
    ∧ (a.extend place owner now).state = a.withStore written.state
  := by
  have hpool : Pool.ofLedger
      (a.store.appendAll [.assign place owner now, .advance place now]).state.ledger
      a.settings.exclusion = a.pool := by
    rcases hresult : (a.store.appendAll [.assign place owner now, .advance place now]).result
      with failure | ⟨⟨⟩⟩
    · exact h.pool_of_error hresult
    · apply Pool.eq_of_queue
      rw [h.queue_assign (by simp [Record.advance]) hresult, hqueue, List.filter_nil]
  simp only [extend, Allocator.withStore, hpool]
  rcases (a.store.appendAll [.assign place owner now, .advance place now]).result
    with failure | ⟨⟨⟩⟩ <;> exact ⟨rfl, rfl⟩

/-- An allocation from the pool assigns its first plot. -/
theorem allocate_of_cons
    {place : Coord} {queue : List Coord} (hqueue : a.pool.queue = place :: queue)
    (name : String) (now : UInt64) :
  let written := a.store.appendAll [.assign place (if name = "" then none else some name) now]
  (a.allocate name now).result = written.result.map (fun _ => place)
    ∧ (a.allocate name now).state = a.withStore written.state
  := by
  unfold allocate
  rw [if_neg h.not_poisoned, h.choose_eq, hqueue]
  exact h.reuse_eq hqueue _ now

/-- An allocation while the pool is empty assigns the next plot of the spiral, or there is
none. -/
theorem allocate_of_nil
    (hqueue : a.pool.queue = []) (name : String) (now : UInt64) :
  (∃ failure, a.nextCandidate = .error failure ∧ (a.allocate name now).result = .error failure
      ∧ (a.allocate name now).state = a)
    ∨ ∃ place, a.nextCandidate = .ok place ∧
      let written := a.store.appendAll
        [.assign place (if name = "" then none else some name) now, .advance place now]
      (a.allocate name now).result = written.result.map (fun _ => place)
        ∧ (a.allocate name now).state = a.withStore written.state
  := by
  unfold allocate
  rw [if_neg h.not_poisoned, h.choose_eq, hqueue]
  rcases a.nextCandidate with failure | place
  · exact .inl ⟨failure, rfl, rfl, rfl⟩
  · exact .inr ⟨place, rfl, h.extend_eq hqueue place _ now⟩

/-- An allocation finds no plot, or it appends the assignment of the plot that is on offer, with a
move of the cursor to it if it is one of the spiral. -/
theorem allocate_cases
    (name : String) (now : UInt64) :
  (∃ failure, a.offer = .error failure ∧ (a.allocate name now).result = .error failure
      ∧ (a.allocate name now).state = a)
    ∨ ∃ place moves, a.offer = .ok place ∧ a.isFree place = true
      ∧ (∀ r ∈ moves, r.Built ∧ r.kind = .advance) ∧ (∀ r ∈ moves, a.choose.1 = .extend r.place) ∧
      let records := .assign place (if name = "" then none else some name) now :: moves
      (a.allocate name now).result = (a.store.appendAll records).result.map (fun _ => place)
        ∧ (a.allocate name now).state = a.withStore (a.store.appendAll records).state
  := by
  unfold offer
  rcases hqueue : a.pool.queue with _ | ⟨place, queue⟩
  · rcases h.allocate_of_nil hqueue name now with
      ⟨failure, hnext, hresult, hstate⟩ | ⟨place, hnext, hresult, hstate⟩
    · exact .inl ⟨failure, hnext, hresult, hstate⟩
    · right
      refine ⟨place, [.advance place now], hnext, isFree_of_nextCandidate hnext, ?_, ?_, hresult,
        hstate⟩ <;> rw [List.forall_mem_singleton]
      · exact ⟨.advance .., rfl⟩
      · exact h.choose_eq_extend.2 ⟨hqueue, hnext⟩
  · right
    use place, []
    exact ⟨rfl, h.isFree_of_mem (hqueue ▸ List.mem_cons_self), by simp, by simp,
      h.allocate_of_cons hqueue name now⟩

/-- An allocation takes a plot that nobody holds, which somebody holds from then on, and takes
no plot from its holder. -/
theorem isAssigned_allocate
    (name : String) (now : UInt64) :
  (∀ place, a.ledger.isAssigned place = true →
      (a.allocate name now).state.ledger.isAssigned place = true)
    ∧ ∀ place, (a.allocate name now).result = .ok place → a.ledger.isAssigned place = false
      ∧ (a.allocate name now).state.ledger.isAssigned place = true
  := by
  rcases h.allocate_cases name now with
    ⟨failure, -, hresult, hstate⟩ | ⟨taken, moves, -, hfree, hmoves, -, hresult, hstate⟩
  · rw [hresult, hstate]
    exact ⟨fun _ => id, fun place hplace => nomatch hplace⟩
  have hnew := (isFree_iff.1 hfree).2
  have hmoves' : ∀ r ∈ moves, r.kind = .advance := fun r hr => (hmoves r hr).2
  rcases a.ledger_appended (.assign taken (if name = "" then none else some name) now :: moves)
    with ⟨failure, hwritten, hledger⟩ | ⟨hwritten, haccepts, hledger⟩
  · rw [hresult, hstate, hwritten, hledger]
    exact ⟨fun _ => id, fun place hplace => nomatch hplace⟩
  rw [hresult, hstate, hwritten, hledger]
  constructor
  · intro place hassigned
    have hne : taken ≠ place := by
      rintro rfl
      cases hnew.symm.trans hassigned
    rw [Ledger.isAssigned_applyAll_of_forall, hassigned]
    exact List.forall_mem_cons.2 ⟨.inr hne, fun r hr => .inl (hmoves' r hr)⟩
  · intro place hplace
    obtain rfl : taken = place := Except.ok.inj hplace
    exact ⟨hnew, Ledger.isAssigned_applyAll_assign hmoves' haccepts⟩

/-- A plot that is given up goes to the pool unless it lies inside the exclusion. -/
theorem release_eq
    (place : Coord) (now : UInt64) :
  (a.release place now).result = (a.store.markOrphan place now).result
    ∧ (a.release place now).state = a.withStore (a.store.markOrphan place now).state
  := by
  unfold release Store.markOrphan Store.append
  rw [if_neg h.not_poisoned]
  by_cases hassigned : a.store.ledger.isAssigned place = true
  · simp only [if_pos hassigned, Allocator.withStore]
    rcases hresult : (a.store.appendAll [.orphan place now]).result with failure | ⟨⟨⟩⟩
    · rw [h.pool_of_error hresult]
      exact ⟨rfl, rfl⟩
    · rw [h.pool_orphan hresult]
      exact ⟨rfl, rfl⟩
  · rw [if_neg hassigned]
    exact ⟨rfl, h.withStore_store.symm⟩

/-- A release does to the store what an append does, or nothing. -/
theorem release_cases
    (place : Coord) (now : UInt64) :
  (a.ledger.isAssigned place = false ∧ (a.release place now).result = .ok false
      ∧ (a.release place now).state = a)
    ∨ (a.ledger.isAssigned place = true
      ∧ (a.release place now).result
        = (a.store.appendAll [.orphan place now]).result.map (fun _ => true)
      ∧ (a.release place now).state = a.withStore (a.store.appendAll [.orphan place now]).state)
  := by
  obtain ⟨hresult, hstate⟩ := h.release_eq place now
  rw [hresult, hstate]
  unfold Store.markOrphan
  by_cases hassigned : a.store.ledger.isAssigned place = true
  · rw [if_pos hassigned]
    exact .inr ⟨hassigned, rfl, rfl⟩
  · rw [if_neg hassigned]
    exact .inl ⟨Bool.eq_false_iff.2 hassigned, rfl, h.withStore_store⟩

/-- A compaction replaces the store, and the pool stays as it is. -/
theorem compact_eq
    (now : UInt64) :
  (a.compact now).result = (a.store.compact now).result
    ∧ (a.compact now).state = a.withStore (a.store.compact now).state
  := by
  have hpool : Pool.ofLedger (a.store.compact now).state.ledger a.settings.exclusion = a.pool := by
    rw [h.pool]
    apply Pool.ofLedger_congr
    rcases a.store.compact_cases now with ⟨failure, journal, -, hstate⟩ | ⟨-, journal, hstate⟩
    · rw [hstate]
      rfl
    · rw [hstate]
      exact Ledger.orphans_snapshot rfl h.distinct now
  unfold compact
  rw [if_neg h.not_poisoned, Allocator.withStore, hpool]
  rcases hresult : (a.store.compact now).result with failure | lines <;>
  · simp only [hresult]
    exact ⟨rfl, rfl⟩

end Pooled

end Allocator

end IslandPlots
