import IslandPlots.Pool
import IslandPlots.Proofs.Ledger.Batch

/-!
# The pool follows the ledger

A pool is determined by its queue (`Pool.eq_of_queue`), so what the operations do to a pool is
what they do to the queue.  The pool of a ledger is its queue of orphans without those inside the
exclusion (`Pool.queue_ofLedger`), and what records do to the orphans they do to the pool.

Queue and members stay in step over every run of operations, so the pool is a queue without
duplicates (`Pool.Raw.run_duplicate_free`).
-/

namespace IslandPlots

namespace Pool

/-! ### Operations in terms of the queue -/

namespace Raw

/-- Taking from an empty queue changes nothing. -/
theorem take_of_nil {raw : Raw} (h : raw.queue = []) :
  raw.take = (none, raw)
  := by
  rw [take, h]

/-- Taking gives the head of the queue, which is no member afterwards. -/
theorem take_of_cons {raw : Raw} {place : Coord} {queue : List Coord}
    (h : raw.queue = place :: queue) :
  raw.take = (some place, { queue, members := raw.members.erase place })
  := by
  rw [take, h]

namespace Sound

variable {raw : Raw} (h : raw.Sound)

include h

/-- The members are determined by the queue. -/
theorem ext {other : Raw} (hother : other.Sound) (hqueue : raw.queue = other.queue) :
  raw = other
  := by
  obtain ⟨queue, members⟩ := raw
  obtain rfl : queue = other.queue := hqueue
  obtain rfl : members = other.members := by
    apply Std.ExtTreeSet.ext_mem
    intro place
    rw [h.mem_members, hother.mem_members]
  rfl

/-- Putting a plot in appends it exactly when it is not in the queue. -/
theorem put_eq (place : Coord) :
  raw.put place = if place ∈ raw.queue then raw
    else { queue := raw.queue ++ [place], members := raw.members.insert place }
  := by
  unfold Raw.put
  simp only [h.contains_iff]

/-- Restoring a plot puts it at the head exactly when it is not in the queue. -/
theorem restoreFront_eq (place : Coord) :
  raw.restoreFront place = if place ∈ raw.queue then raw
    else { queue := place :: raw.queue, members := raw.members.insert place }
  := by
  unfold Raw.restoreFront
  simp only [h.contains_iff]

/-- Restoring the plot that was taken undoes the taking. -/
theorem restoreFront_take {place : Coord} {queue : List Coord}
    (hqueue : raw.queue = place :: queue) :
  raw.take.2.restoreFront place = raw
  := by
  have hnodup := h.nodup
  rw [hqueue, List.nodup_cons] at hnodup
  have hrest : raw.take.2.queue = queue := by
    rw [take_of_cons hqueue]
  -- The plot is no member of what is left, so it does get back; the members follow the queue.
  apply (h.take.restoreFront place).ext h
  rw [h.take.restoreFront_eq, hrest, if_neg hnodup.1, hqueue]

/-- Putting in different plots that are not in the queue appends them in order. -/
theorem queue_foldl_put {places : List Coord} (hnodup : (raw.queue ++ places).Nodup) :
  (places.foldl Raw.put raw).queue = raw.queue ++ places
  := by
  induction places generalizing raw with
  | nil => rw [List.append_nil, List.foldl_nil]
  | cons place places ih =>
    have hnew : place ∉ raw.queue := fun hmem =>
      (List.nodup_append.1 hnodup).2.2 place hmem place List.mem_cons_self rfl
    have hput : (raw.put place).queue = raw.queue ++ [place] := by
      rw [h.put_eq, if_neg hnew]
    rw [List.append_cons, ← hput] at hnodup
    rw [List.foldl_cons, ih (h.put place) hnodup, hput, ← List.append_cons]

end Sound

end Raw

/-- A pool is determined by its queue. -/
theorem eq_of_queue {pool other : Pool} (h : pool.queue = other.queue) :
  pool = other
  := by
  obtain ⟨raw, hsound⟩ := pool
  obtain rfl : raw = other.toRaw := hsound.ext other.sound h
  rfl

/-- Taking from an empty pool changes nothing. -/
theorem take_of_nil {pool : Pool} (h : pool.queue = []) :
  pool.take = (none, pool)
  := by
  refine Prod.ext ?_ (eq_of_queue ?_) <;> simp only [take, Raw.take_of_nil h]

/-- Taking from a pool that is not empty gives the head of its queue. -/
theorem take_of_cons {pool : Pool} {place : Coord} {queue : List Coord}
    (h : pool.queue = place :: queue) :
  pool.take = (some place, pool.take.2)
  := by
  refine Prod.ext ?_ rfl
  simp only [take, Raw.take_of_cons h]

/-- Taking from a pool that is not empty leaves the rest of its queue. -/
theorem queue_take {pool : Pool} {place : Coord} {queue : List Coord}
    (h : pool.queue = place :: queue) :
  pool.take.2.queue = queue
  := by
  change pool.toRaw.take.2.queue = queue
  rw [Raw.take_of_cons h]

/-- Restoring the plot that was taken undoes the taking. -/
theorem restoreFront_take {pool : Pool} {place : Coord} {queue : List Coord}
    (h : pool.queue = place :: queue) :
  pool.take.2.restoreFront place = pool
  := eq_of_queue (congrArg Raw.queue (pool.sound.restoreFront_take h))

/-- Taking removes the plot that it gives from the queue. -/
theorem queue_take_eq_filter {pool : Pool} {place : Coord} {queue : List Coord}
    (h : pool.queue = place :: queue) :
  pool.take.2.queue = pool.queue.filter (· ≠ place)
  := by
  have hnodup := pool.sound.nodup
  rw [h, List.nodup_cons] at hnodup
  rw [queue_take h, h, List.filter_cons_of_neg (by simp), eq_comm, List.filter_eq_self]
  intro other hother
  rw [decide_eq_true_iff]
  rintro rfl
  exact hnodup.1 hother

/-- There is no usable plot in an empty pool. -/
theorem takeUsable_of_nil {pool : Pool} (h : pool.queue = []) (usable : Coord → Bool) :
  pool.takeUsable usable = (none, pool)
  := by
  rw [takeUsable, h]
  exact take_of_nil h

/-- The head of the queue is taken; if it is not usable, the search goes on in the rest. -/
theorem takeUsable_of_cons {pool : Pool} {place : Coord} {queue : List Coord}
    (h : pool.queue = place :: queue) (usable : Coord → Bool) :
  pool.takeUsable usable
    = if usable place then pool.take else pool.take.2.takeUsable usable
  := by
  unfold takeUsable
  rw [h, queue_take h]
  split_ifs with husable
  · rw [List.takeWhile_cons_of_neg (by simp [husable])]
    rfl
  · rw [List.takeWhile_cons_of_pos (by simp [husable])]
    rfl

/-- A pool without usable plots is emptied in vain. -/
theorem takeUsable_of_forall {pool : Pool} {usable : Coord → Bool}
    (h : ∀ place ∈ pool.queue, usable place = false) :
  pool.takeUsable usable = (none, {})
  := by
  induction hqueue : pool.queue generalizing pool with
  | nil =>
    obtain rfl : pool = {} := eq_of_queue hqueue
    exact takeUsable_of_nil rfl usable
  | cons place queue ih =>
    rw [hqueue, List.forall_mem_cons] at h
    rw [takeUsable_of_cons hqueue, h.1, if_neg Bool.false_ne_true]
    exact ih (by rw [queue_take hqueue]; exact h.2) (queue_take hqueue)

/-! ### The pool of a ledger -/

/-- The plots in the pool of a ledger are its orphans without those inside the exclusion, in their
order. -/
theorem queue_ofLedger
    {ledger : Ledger} (h : ledger.Distinct) (exclusion : Exclusion) :
  (ofLedger ledger exclusion).queue
    = ledger.orphans.filter fun place => !exclusion.contains place
  := Raw.sound_empty.queue_foldl_put (h.nodup_orphans.filter _)

/-- Ledgers with the same orphans have the same pool. -/
theorem ofLedger_congr
    {ledger other : Ledger} (h : ledger.orphans = other.orphans) (exclusion : Exclusion) :
  ofLedger ledger exclusion = ofLedger other exclusion
  := by
  apply eq_of_queue
  simp only [ofLedger, Raw.ofLedger, h]

/-- The plots in the pool of a ledger were given up and lie outside the exclusion. -/
theorem mem_ofLedger
    {ledger : Ledger} (h : ledger.Distinct) {exclusion : Exclusion} {place : Coord} :
  place ∈ (ofLedger ledger exclusion).queue
    ↔ ledger.standing? place = some .orphaned ∧ exclusion.contains place = false
  := by
  rw [queue_ofLedger h, List.mem_filter, h.mem_orphans, Bool.not_eq_true']

/-- An assigned plot leaves the pool, also when the cursor is moved with the assignment. -/
theorem queue_ofLedger_assign
    {ledger : Ledger} (h : ledger.Distinct) {place : Coord} {owner : Option String}
    {now : UInt64} {moves : List Record} (hmoves : ∀ r ∈ moves, r.kind = .advance)
    (haccepts : ledger.Accepts (.assign place owner now :: moves)) (exclusion : Exclusion) :
  (ofLedger (ledger.applyAll (.assign place owner now :: moves)) exclusion).queue
    = (ofLedger ledger exclusion).queue.filter (· ≠ place)
  := by
  rw [queue_ofLedger (h.applyAll _), queue_ofLedger h, h.orphans_applyAll_assign hmoves haccepts]
  simp only [List.filter_filter, Bool.and_comm]

/-- A plot that is given up goes to the end of the pool, unless it lies inside the
exclusion. -/
theorem ofLedger_orphan
    {ledger : Ledger} (h : ledger.Distinct) {place : Coord} {now : UInt64}
    (haccepts : ledger.Accepts [.orphan place now]) (exclusion : Exclusion) :
  ofLedger (ledger.applyAll [.orphan place now]) exclusion
    = if exclusion.contains place then ofLedger ledger exclusion
      else (ofLedger ledger exclusion).put place
  := by
  obtain ⟨after, happly, -⟩ := Ledger.accepts_cons.1 haccepts
  have hafter : ledger.applyAll [.orphan place now] = after :=
    Ledger.applyAll_cons_of_ok happly []
  have hraw : Raw.ofLedger after exclusion
      = if exclusion.contains place then Raw.ofLedger ledger exclusion
        else (Raw.ofLedger ledger exclusion).put place := by
    rw [Raw.ofLedger, h.orphans_apply happly]
    simp only [Record.orphan, List.filter_append, List.foldl_append]
    split_ifs with hexcluded
    · rw [List.filter_singleton, hexcluded]
      rfl
    · rw [List.filter_singleton, Bool.eq_false_iff.2 hexcluded]
      rfl
  apply eq_of_queue
  rw [hafter]
  split_ifs at hraw ⊢ <;> exact congrArg Raw.queue hraw

/-! ### Runs of operations -/

/-- What can be done with a pool. -/
inductive Action where
  | put (place : Coord)
  | take
  | restoreFront (place : Coord)

namespace Raw

/-- What an action leaves. -/
def perform (raw : Raw) : Action → Raw
  | .put place => raw.put place
  | .take => raw.take.2
  | .restoreFront place => raw.restoreFront place

/-- What actions leave that follow one another. -/
def run (raw : Raw) (actions : List Action) : Raw :=
  actions.foldl perform raw

namespace Sound

variable {raw : Raw} (h : raw.Sound)

include h

/-- Every action keeps queue and members in step. -/
theorem perform (action : Action) :
  (raw.perform action).Sound
  := by
  cases action with
  | put place => exact h.put place
  | take => exact h.take
  | restoreFront place => exact h.restoreFront place

/-- Every run keeps queue and members in step. -/
theorem run (actions : List Action) :
  (raw.run actions).Sound
  := by
  induction actions generalizing raw with
  | nil => exact h
  | cons action actions ih => exact ih (h.perform action)

/-- A plot is appended when it is not in the queue, and only then. -/
theorem queue_put_iff {place : Coord} :
  (raw.put place).queue = raw.queue ++ [place] ↔ place ∉ raw.queue
  := by
  rw [h.put_eq]
  split_ifs with hmem <;> simp [hmem]

/-- A plot is put at the head when it is not in the queue, and only then. -/
theorem queue_restoreFront_iff {place : Coord} :
  (raw.restoreFront place).queue = place :: raw.queue ↔ place ∉ raw.queue
  := by
  rw [h.restoreFront_eq]
  split_ifs with hmem <;> simp [hmem]

end Sound

/-- A pool is a queue without duplicates, whether it starts empty or with the orphans of a ledger,
and whatever is put in, taken and restored.  The members are the plots of the queue, so a plot is
put at the end or at the head exactly when it is not in the queue, and nothing changes when it is.
Taking gives the head of the queue, and restoring that plot leads back to the same queue with the
same members. -/
theorem run_duplicate_free
    {start : Raw} (h : start = {} ∨ ∃ ledger exclusion, start = ofLedger ledger exclusion)
    (actions : List Action) :
  let raw := start.run actions
  ((∀ place, place ∈ raw.members ↔ place ∈ raw.queue) ∧ raw.queue.Nodup)
    ∧ (∀ place, ((raw.put place).queue = raw.queue ++ [place] ↔ place ∉ raw.queue)
      ∧ (place ∈ raw.queue → raw.put place = raw))
    ∧ (∀ place, ((raw.restoreFront place).queue = place :: raw.queue ↔ place ∉ raw.queue)
      ∧ (place ∈ raw.queue → raw.restoreFront place = raw))
    ∧ ∀ place queue, raw.queue = place :: queue →
      raw.take.1 = some place ∧ raw.take.2.queue = queue ∧ raw.take.2.restoreFront place = raw
  := by
  intro raw
  have hstart : start.Sound := by
    rcases h with rfl | ⟨ledger, exclusion, rfl⟩
    · exact sound_empty
    · exact sound_ofLedger ledger exclusion
  have hraw : raw.Sound := hstart.run actions
  have hput (place : Coord) (hmem : place ∈ raw.queue) : raw.put place = raw := by
    rw [hraw.put_eq, if_pos hmem]
  have hrestore (place : Coord) (hmem : place ∈ raw.queue) : raw.restoreFront place = raw := by
    rw [hraw.restoreFront_eq, if_pos hmem]
  refine ⟨⟨hraw.mem_members, hraw.nodup⟩, fun place => ⟨hraw.queue_put_iff, hput place⟩,
    fun place => ⟨hraw.queue_restoreFront_iff, hrestore place⟩, ?_⟩
  intro place queue hqueue
  refine ⟨?_, ?_, hraw.restoreFront_take hqueue⟩ <;> rw [take_of_cons hqueue]

/-- Of two orphans the older one is taken and put in again: it waits behind the other one then, and
neither of them is queued twice. -/
theorem run_duplicate_free_two :
  let first : Coord := ⟨10, 0, by decide, by decide⟩
  let second : Coord := ⟨20, 0, by decide, by decide⟩
  let ledger := ({} : Ledger).applyAll [.assign first none 1, .assign second none 2,
    .orphan first 3, .orphan second 4]
  let raw := (ofLedger ledger ⟨0⟩).run [.put second, .take, .restoreFront second, .put first]
  raw.queue = [second, first] ∧ raw.put second = raw ∧ raw.restoreFront first = raw
    ∧ raw.take.2.restoreFront second = raw
  := by
  intro first second ledger raw
  have hqueue : raw.queue = [second, first] := by
    decide +kernel
  have hsecond : second ∈ raw.queue := by
    rw [hqueue]
    exact List.mem_cons_self
  have hfirst : first ∈ raw.queue := by
    rw [hqueue]
    exact List.mem_cons_of_mem _ List.mem_cons_self
  obtain ⟨-, hput, hrestore, htake⟩ := run_duplicate_free (.inr ⟨ledger, ⟨0⟩, rfl⟩)
    [.put second, .take, .restoreFront second, .put first]
  obtain ⟨-, -, hback⟩ := htake second [first] hqueue
  exact ⟨hqueue, (hput second).2 hsecond, (hrestore first).2 hfirst, hback⟩

end Raw

end Pool

end IslandPlots
