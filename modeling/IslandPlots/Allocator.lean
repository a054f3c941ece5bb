import IslandPlots.Config
import IslandPlots.Pool
import IslandPlots.Spiral
import IslandPlots.Store

/-!
# The allocator

The allocator hands out plots, each to one owner at a time.  A plot that was given up is
handed out again before a new one is taken from the spiral, and a result is returned only
when the journal has acknowledged the records behind it.

All operations run under one lock, so they follow one another; each is a function of the
state and the time at which it runs.  A caller that dies while it holds the lock poisons
it, and every later operation fails.
-/

namespace IslandPlots

/-- An allocator whose reservations are kept in a journal of type `J`. -/
structure Allocator (J : Type) where
  settings : Settings
  store : Store J
  /-- The plots to be handed out again. -/
  pool : Pool := {}
  /-- Whether a caller died while it held the lock. -/
  poisoned : Bool := false
deriving DecidableEq

namespace Allocator

/-- The numbers in which an allocator is described. -/
structure Stats where
  assigned : Nat
  orphaned : Nat
  corrupt : Nat
  applied : Nat
  pooled : Nat
  cursor : Coord
deriving DecidableEq

variable {J : Type}

/-- The ledger of an allocator. -/
def ledger (a : Allocator J) : Ledger :=
  a.store.ledger

/-- The numbers that describe the state of an allocator. -/
def counts (a : Allocator J) : Stats where
  assigned := a.ledger.assignedCount
  orphaned := a.ledger.orphanedCount
  corrupt := a.store.corrupt
  applied := a.ledger.revision
  pooled := a.pool.size
  cursor := a.ledger.cursor

/-- Whether a plot may be handed out. -/
def isFree (a : Allocator J) (place : Coord) : Bool :=
  !a.settings.exclusion.contains place && !a.ledger.isAssigned place

/-! ### Queries -/

/-- Answers a question about the state, unless the lock is poisoned. -/
def query {α : Type} (a : Allocator J) (answer : Allocator J → α) : Except Failure α :=
  if a.poisoned then .error .poisoned else .ok (answer a)

/-- The owner of a plot; `none` when nobody holds it or the holder is not named. -/
def ownerOf (a : Allocator J) (place : Coord) : Except Failure (Option String) :=
  a.query fun a => a.ledger.ownerOf place

/-- Whether someone holds a plot. -/
def isAssigned (a : Allocator J) (place : Coord) : Except Failure Bool :=
  a.query fun a => a.ledger.isAssigned place

/-- The numbers that describe the state. -/
def stats (a : Allocator J) : Except Failure Stats :=
  a.query counts

/-! ### Choosing a plot -/

/-- The coordinate after which the search along the spiral begins: the cursor, or the last
coordinate of the exclusion while the cursor lies on a ring of the exclusion. -/
def searchStart (settings : Settings) (cursor : Coord) : Coord :=
  let rings := settings.exclusion.rings settings.spacing
  if cursor.ring settings.spacing ≤ rings then Coord.ringEnd settings.spacing rings
  else cursor

/-- The next plot of the spiral that may be handed out. -/
def nextCandidate (a : Allocator J) : Except Failure Coord :=
  (Coord.seek a.settings.spacing a.isFree
    (searchStart a.settings a.ledger.cursor)).mapError fun edge => .exhausted (.edge edge)

/-- Where the plot of an allocation comes from. -/
inductive Choice where
  /-- A plot that was given up. -/
  | reuse (place : Coord)
  /-- The next plot of the spiral. -/
  | extend (place : Coord)
  /-- There is no plot. -/
  | none (failure : Failure)

/-- Chooses the plot of an allocation: the oldest orphan that may be handed out, otherwise
the next plot of the spiral.  The orphan is no longer in the pool afterwards. -/
def choose (a : Allocator J) : Choice × Allocator J :=
  match a.pool.takeUsable a.isFree with
  | (some place, pool) => (.reuse place, { a with pool := pool })
  | (none, pool) =>
    let a := { a with pool := pool }
    match a.nextCandidate with
    | .ok place => (.extend place, a)
    | .error failure => (.none failure, a)

/-! ### Operations -/

variable [Journal J]

/-- The allocator of a journal under given settings. -/
def load (settings : Settings) (journal : J) : Except Failure (Allocator J × List Notice) :=
  match Store.load journal with
  | .error failure => .error failure
  | .ok (store, notices) =>
    let pool := Pool.ofLedger store.ledger settings.exclusion
    let a : Allocator J := { settings, store, pool }
    let counts := a.counts
    .ok (a, notices ++ Pool.exclusionNotices store.ledger settings.exclusion ++
      [.loaded counts.assigned counts.orphaned counts.pooled counts.corrupt counts.cursor])

/-- Assigns an orphan, which goes back to the head of the pool if that fails. -/
def reuse (a : Allocator J) (place : Coord) (owner : Option String) (now : UInt64) :
    Outcome Failure (Allocator J) Coord :=
  let written := a.store.assign place owner now
  let a := { a with store := written.state }
  match written.result with
  | .error failure =>
    .fail failure { a with pool := a.pool.restoreFront place }
      (written.notices ++ [.reuseFailed place failure])
  | .ok () => .ok place a (written.notices ++ [.reused place owner])

/-- Assigns a plot of the spiral and moves the cursor to it, with one append. -/
def extend (a : Allocator J) (place : Coord) (owner : Option String) (now : UInt64) :
    Outcome Failure (Allocator J) Coord :=
  let written := a.store.appendAll [.assign place owner now, .advance place now]
  let a := { a with store := written.state }
  match written.result with
  | .error failure => .fail failure a (written.notices ++ [.assignmentFailed place failure])
  | .ok () => .ok place a (written.notices ++ [.assigned place owner])

/-- Hands out a plot.  An empty name means that the owner is not named. -/
def allocate (a : Allocator J) (name : String) (now : UInt64) :
    Outcome Failure (Allocator J) Coord :=
  if a.poisoned then .fail .poisoned a
  else
    let owner := if name = "" then none else some name
    match a.choose with
    | (.reuse place, a) => a.reuse place owner now
    | (.extend place, a) => a.extend place owner now
    | (.none failure, a) => .fail failure a [.noPlot owner failure]

/-- An allocation whose caller dies when the record is to be written.  The result says
whether it came to that. -/
def allocateDying (a : Allocator J) : Bool × Allocator J :=
  if a.poisoned then (false, a)
  else
    match a.choose with
    | (.none _, a) => (false, a)
    | (_, a) => (true, { a with poisoned := true })

/-- Takes a plot from its holder and keeps it to be handed out again.  The result says
whether it had a holder. -/
def release (a : Allocator J) (place : Coord) (now : UInt64) :
    Outcome Failure (Allocator J) Bool :=
  if a.poisoned then .fail .poisoned a
  else
    let written := a.store.markOrphan place now
    let a := { a with store := written.state }
    match written.result with
    | .error failure => .fail failure a (written.notices ++ [.releaseFailed place failure])
    | .ok false => .ok false a written.notices
    | .ok true =>
      let pool := if a.settings.exclusion.contains place then a.pool else a.pool.put place
      .ok true { a with pool := pool } (written.notices ++ [.released place])

/-- Replaces the journal by a shortest log of the reservations.  The result is the number
of its lines. -/
def compact (a : Allocator J) (now : UInt64) : Outcome Failure (Allocator J) Nat :=
  if a.poisoned then .fail .poisoned a
  else
    let written := a.store.compact now
    let a := { a with store := written.state }
    match written.result with
    | .error failure => .fail failure a written.notices
    | .ok lines => .ok lines a (written.notices ++ [.compacted lines])

end Allocator

end IslandPlots
