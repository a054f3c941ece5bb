import IslandPlots.Exclusion
import IslandPlots.Notice
import Std.Data.ExtTreeSet

/-!
# The pool of orphans

Plots that were given up wait in a queue to be handed out again, the one that has waited
longest first.  Beside the queue stands a set of members, in which a plot is looked up before it
is queued.  A `Pool.Raw` is any queue with any set; in a `Pool` the set holds the plots of the
queue and no plot is in the queue twice.  The operations of a pool are those of its raw form,
and each of them keeps the two in step (`Pool.Raw.Sound.put`, `Pool.Raw.Sound.restoreFront`,
`Pool.Raw.Sound.take`).
-/

namespace IslandPlots

/-- A queue of plots and a set of members beside it. -/
structure Pool.Raw where
  /-- The plots, the next one first. -/
  queue : List Coord := []
  /-- The plots that are taken to be in the queue. -/
  members : Std.ExtTreeSet Coord Coord.order := ∅
deriving DecidableEq, Inhabited

namespace Pool.Raw

/-- Whether a plot is a member. -/
def contains (raw : Raw) (place : Coord) : Bool :=
  raw.members.contains place

/-- Puts a plot at the end of the queue, unless it is a member. -/
def put (raw : Raw) (place : Coord) : Raw :=
  if raw.contains place then raw
  else { queue := raw.queue ++ [place], members := raw.members.insert place }

/-- Puts a plot at the head of the queue, unless it is a member. -/
def restoreFront (raw : Raw) (place : Coord) : Raw :=
  if raw.contains place then raw
  else { queue := place :: raw.queue, members := raw.members.insert place }

/-- Takes the plot at the head of the queue, which is no member afterwards. -/
def take (raw : Raw) : Option Coord × Raw :=
  match raw.queue with
  | [] => (none, raw)
  | place :: queue => (some place, { queue, members := raw.members.erase place })

/-- The orphans of a ledger that lie outside the exclusion, put in one after the other. -/
def ofLedger (ledger : Ledger) (exclusion : Exclusion) : Raw :=
  (ledger.orphans.filter fun place => !exclusion.contains place).foldl put {}

/-! ### Queue and members in step -/

/-- No plot is in the queue twice, and the members are the plots of the queue. -/
structure Sound (raw : Raw) : Prop where
  nodup : raw.queue.Nodup
  mem_members (place : Coord) : place ∈ raw.members ↔ place ∈ raw.queue

/-- Nothing is queued, and there is no member. -/
theorem sound_empty :
  Sound {}
  where
  nodup := List.nodup_nil
  mem_members place := by simp

namespace Sound

variable {raw : Raw} (h : raw.Sound)

include h

/-- A plot is found among the members when it is in the queue. -/
theorem contains_iff {place : Coord} :
  raw.contains place = true ↔ place ∈ raw.queue
  := by
  rw [contains, Std.ExtTreeSet.contains_iff_mem, h.mem_members]

/-- A plot that is not in the queue can join it anywhere, if it becomes a member. -/
theorem insert {place : Coord} (hnew : ¬ raw.contains place = true) {queue : List Coord}
    (hqueue : queue.Perm (place :: raw.queue)) :
  Sound { queue, members := raw.members.insert place }
  where
  nodup := by
    rw [hqueue.nodup_iff, List.nodup_cons]
    exact ⟨mt h.contains_iff.2 hnew, h.nodup⟩
  mem_members other := by
    rw [hqueue.mem_iff, List.mem_cons, Std.ExtTreeSet.mem_insert, h.mem_members,
      Std.LawfulEqCmp.compare_eq_iff_eq, eq_comm]

/-- A plot put at the end of the queue becomes a member. -/
theorem put (place : Coord) :
  (raw.put place).Sound
  := by
  unfold Raw.put
  split
  · exact h
  next hnew => exact h.insert hnew (List.perm_append_singleton place raw.queue)

/-- A plot put at the head of the queue becomes a member. -/
theorem restoreFront (place : Coord) :
  (raw.restoreFront place).Sound
  := by
  unfold Raw.restoreFront
  split
  · exact h
  next hnew => exact h.insert hnew (.refl _)

/-- The plot taken from the queue was there once, so it may cease to be a member. -/
theorem take :
  raw.take.2.Sound
  := by
  unfold Raw.take
  split
  · exact h
  next place queue hqueue =>
    have hnodup := h.nodup
    rw [hqueue, List.nodup_cons] at hnodup
    refine ⟨hnodup.2, fun other => ?_⟩
    rw [Std.ExtTreeSet.mem_erase, h.mem_members, hqueue, List.mem_cons, Ne,
      Std.LawfulEqCmp.compare_eq_iff_eq]
    constructor
    · rintro ⟨hne, rfl | hother⟩
      · exact absurd rfl hne
      · exact hother
    · intro hother
      refine ⟨?_, .inr hother⟩
      rintro rfl
      exact hnodup.1 hother

/-- Putting in plots one after the other keeps queue and members in step. -/
theorem foldl_put (places : List Coord) :
  (places.foldl Raw.put raw).Sound
  := by
  induction places generalizing raw with
  | nil => exact h
  | cons place places ih => exact ih (h.put place)

end Sound

/-- The orphans of a ledger are queued once each, whatever the ledger. -/
theorem sound_ofLedger (ledger : Ledger) (exclusion : Exclusion) :
  (ofLedger ledger exclusion).Sound
  := sound_empty.foldl_put _

end Pool.Raw

/-- The plots that wait to be handed out again. -/
structure Pool extends Pool.Raw where
  sound : toRaw.Sound := by exact Pool.Raw.sound_empty
deriving DecidableEq

namespace Pool

instance : Inhabited Pool := ⟨{}⟩

/-- The number of plots in the queue. -/
def size (pool : Pool) : Nat :=
  pool.queue.length

/-- Puts a plot at the end of the queue, unless it is in the queue. -/
def put (pool : Pool) (place : Coord) : Pool :=
  ⟨pool.toRaw.put place, pool.sound.put place⟩

/-- Puts a plot at the head of the queue, unless it is in the queue. -/
def restoreFront (pool : Pool) (place : Coord) : Pool :=
  ⟨pool.toRaw.restoreFront place, pool.sound.restoreFront place⟩

/-- Takes the plot at the head of the queue. -/
def take (pool : Pool) : Option Coord × Pool :=
  (pool.toRaw.take.1, ⟨pool.toRaw.take.2, pool.sound.take⟩)

/-- Takes plots from the queue until one is `usable`.  The plots before it are lost. -/
def takeUsable (usable : Coord → Bool) (pool : Pool) : Option Coord × Pool :=
  let lost := pool.queue.takeWhile fun place => !usable place
  (lost.foldl (fun pool _ => pool.take.2) pool).take

/-- The pool of the orphans of a ledger that lie outside the exclusion. -/
def ofLedger (ledger : Ledger) (exclusion : Exclusion) : Pool :=
  ⟨Raw.ofLedger ledger exclusion, Raw.sound_ofLedger ledger exclusion⟩

/-- The notices about the orphans of a ledger that lie inside the exclusion. -/
def exclusionNotices (ledger : Ledger) (exclusion : Exclusion) : List Notice :=
  (ledger.orphans.filter exclusion.contains).map .excludedOrphan

end Pool

end IslandPlots
