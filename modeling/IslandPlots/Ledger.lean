import IslandPlots.Record

/-!
# The ledger of reservations

The ledger is what a log of records amounts to: for every plot that was ever handed out its
current reservation, and the position of the spiral cursor.  Reservations stand in the
order of the records that last changed them, so the plots without an owner come oldest
first, and each keeps the number of that record.

`Ledger.apply` takes one record into the ledger and refuses an impossible one; `replay`
takes a whole log and skips the lines that are no records or are refused.  Whether a batch
of records is possible is decided beforehand on the standings alone, by `checkAll`.
-/

namespace IslandPlots

/-- The state of a plot that was handed out. -/
inductive Standing where
  /-- Someone holds the plot. -/
  | assigned
  /-- The plot was given up and waits to be handed out again. -/
  | orphaned
deriving DecidableEq

/-- The word for a standing. -/
def Standing.word : Standing → String
  | .assigned => "Assigned"
  | .orphaned => "Orphaned"

/-- What is known of a plot that was handed out. -/
structure Reservation where
  place : Coord
  owner : Option String
  standing : Standing
  /-- The time stamp of the record that last changed the reservation. -/
  changed : UInt64
  /-- The number of that record among those taken into the ledger. -/
  revision : Nat
deriving DecidableEq

/-- The reservations and the spiral cursor. -/
structure Ledger where
  /-- The reservations, in order of their revisions. -/
  reservations : List Reservation := []
  /-- The coordinate last handed out by the spiral. -/
  cursor : Coord := Coord.origin
  /-- The number of records taken into the ledger. -/
  revision : Nat := 0
deriving DecidableEq, Inhabited

/-- Why a record cannot be taken into a ledger. -/
inductive Rejection where
  /-- The plot is to be assigned while `holder` has it. -/
  | held (place : Coord) (holder : Option String)
  /-- A plot that was never handed out is to be given up. -/
  | unknown (place : Coord)
  /-- A plot that nobody has is to be given up. -/
  | unassigned (place : Coord)
deriving DecidableEq

/-- How messages show an owner: a dash stands for none. -/
def ownerText (owner : Option String) : String :=
  owner.getD "-"

/-- The wording of a rejection. -/
def Rejection.reason : Rejection → String
  | .held place holder =>
    s!"assign of already assigned plot {place} (held by {ownerText holder})"
  | .unknown place => s!"orphan of unknown plot {place}"
  | .unassigned place => s!"orphan of unassigned plot {place}"

namespace Ledger

/-! ### Questions -/

/-- The reservation of a plot. -/
def find? (ledger : Ledger) (place : Coord) : Option Reservation :=
  ledger.reservations.find? fun r => r.place = place

/-- The standing of a plot; `none` when it was never handed out. -/
def standing? (ledger : Ledger) (place : Coord) : Option Standing :=
  (ledger.find? place).map (·.standing)

/-- Whether someone holds a plot. -/
def isAssigned (ledger : Ledger) (place : Coord) : Bool :=
  ledger.standing? place = some .assigned

/-- Who holds a plot; `none` also when the holder is not named. -/
def ownerOf (ledger : Ledger) (place : Coord) : Option String :=
  if ledger.isAssigned place then (ledger.find? place).bind (·.owner) else none

/-- The reservations of the plots that were given up. -/
def orphanReservations (ledger : Ledger) : List Reservation :=
  ledger.reservations.filter fun r => r.standing = .orphaned

/-- The plots that were given up, in the order in which that happened. -/
def orphans (ledger : Ledger) : List Coord :=
  ledger.orphanReservations.map (·.place)

/-- The number of plots that someone holds. -/
def assignedCount (ledger : Ledger) : Nat :=
  ledger.reservations.countP fun r => r.standing = .assigned

/-- The number of plots that were given up. -/
def orphanedCount (ledger : Ledger) : Nat :=
  ledger.reservations.length - ledger.assignedCount

/-! ### Taking records in -/

/-- The ledger in which `r` has replaced the reservation of its plot. -/
def supersede (ledger : Ledger) (r : Reservation) : Ledger :=
  { ledger with
    reservations := (ledger.reservations.filter fun old => old.place ≠ r.place) ++ [r]
    revision := ledger.revision + 1 }

/-- The ledger after one more record. -/
def apply (ledger : Ledger) (record : Record) : Except Rejection Ledger :=
  match record.kind with
  | .assign =>
    match ledger.find? record.place with
    | some ⟨_, holder, .assigned, _, _⟩ => .error (.held record.place holder)
    | _ => .ok (ledger.supersede
        { place := record.place, owner := record.owner, standing := .assigned,
          changed := record.stamp, revision := ledger.revision })
  | .orphan =>
    match ledger.find? record.place with
    | none => .error (.unknown record.place)
    | some ⟨_, _, .orphaned, _, _⟩ => .error (.unassigned record.place)
    | some ⟨_, _, .assigned, _, _⟩ => .ok (ledger.supersede
        { place := record.place, owner := none, standing := .orphaned,
          changed := record.stamp, revision := ledger.revision })
  | .advance =>
    .ok { ledger with cursor := record.place, revision := ledger.revision + 1 }

/-- The ledger after those of the records that can be taken in. -/
def applyAll (ledger : Ledger) (records : List Record) : Ledger :=
  records.foldl (fun ledger record => (ledger.apply record).toOption.getD ledger) ledger

/-! ### Replaying a log -/

/-- Why a line of a log is skipped. -/
inductive Skip where
  /-- Line number `line` is not a record. -/
  | unreadable (line : Nat) (defect : Record.Defect)
  /-- The record on line number `line` is impossible where it stands. -/
  | rejected (line : Nat) (rejection : Rejection)
deriving DecidableEq

/-- The result of replaying the lines of a log. -/
structure Replay where
  ledger : Ledger := {}
  /-- The lines that were skipped. -/
  skips : List Skip := []
  /-- The number of lines read. -/
  lines : Nat := 0
deriving DecidableEq, Inhabited

/-- The replay after one more line. -/
def Replay.step (replay : Replay) (line : String) : Replay :=
  let number := replay.lines + 1
  match Record.parse line with
  | .error defect =>
    { replay with skips := replay.skips ++ [.unreadable number defect], lines := number }
  | .ok record =>
    match replay.ledger.apply record with
    | .error rejection =>
      { replay with skips := replay.skips ++ [.rejected number rejection], lines := number }
    | .ok ledger => { replay with ledger := ledger, lines := number }

/-- The replay of a log from its first line. -/
def replay (lines : List String) : Replay :=
  lines.foldl Replay.step {}

/-! ### Checking records before they are written -/

/-- Whether a change of a given kind is possible for a plot of a given standing. -/
def allows (standing : Option Standing) : Kind → Bool
  | .assign => standing ≠ some .assigned
  | .orphan => standing = some .assigned
  | .advance => true

/-- The standing of a plot after a change. -/
def standingAfter (standing : Option Standing) : Kind → Option Standing
  | .assign => some .assigned
  | .orphan => some .orphaned
  | .advance => standing

/-- Checks that records are possible one after the other, from given standings.  The
result names the first that is not, and the standing in which it finds its plot. -/
def checkAll (standings : Coord → Option Standing) :
    List Record → Except (Record × Option Standing) Unit
  | [] => .ok ()
  | record :: rest =>
    let standing := standings record.place
    if allows standing record.kind then
      let after := standingAfter standing record.kind
      checkAll (fun place => if place = record.place then after else standings place) rest
    else .error (record, standing)

/-! ### The shortest log -/

/-- The records of a shortest log that replays to the ledger: every plot is assigned in
the order of the reservations, those without an owner are then given up in that order, and
the cursor is moved if it is not at the origin. -/
def snapshot (ledger : Ledger) (now : UInt64) : List Record :=
  ledger.reservations.map (fun r => Record.assign r.place r.owner r.changed)
    ++ ledger.orphanReservations.map (fun r => Record.orphan r.place r.changed)
    ++ if ledger.cursor = Coord.origin then [] else [Record.advance ledger.cursor now]

end Ledger

end IslandPlots
