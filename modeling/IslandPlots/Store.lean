import IslandPlots.Journal

/-!
# The store

A store is a journal together with the ledger it amounts to.  Records are checked against
the ledger, written with one append, and taken into the ledger only when the journal has
acknowledged them; a failed operation leaves the ledger as it was.
-/

namespace IslandPlots

/-- A journal, the ledger it amounts to, and the number of its lines that were skipped. -/
structure Store (J : Type) where
  journal : J
  ledger : Ledger := {}
  corrupt : Nat := 0
deriving DecidableEq

namespace Store

variable {J : Type} [Journal J]

/-! ### Loading -/

/-- The notices about the lines that a replay skipped. -/
def replayNotices (location : String) (replay : Ledger.Replay) : List Notice :=
  replay.skips.map (.skipped location)
    ++ if replay.skips.isEmpty then [] else [.unreadable location replay.skips.length]

/-- The store of a journal, with the notices about the lines that were skipped. -/
def load (journal : J) : Except Failure (Store J × List Notice) :=
  let location := Journal.location journal
  match Journal.lines journal with
  | .error fault => .error (.storage location fault)
  | .ok lines =>
    let replay := Ledger.replay lines
    .ok ({ journal, ledger := replay.ledger, corrupt := replay.skips.length },
      replayNotices location replay)

/-! ### Writing -/

/-- Appends records with one write.  Either all of them are in the journal and the ledger
afterwards, or the ledger is as it was. -/
def appendAll (store : Store J) (records : List Record) : Outcome Failure (Store J) Unit :=
  match Ledger.checkAll store.ledger.standing? records with
  | .error (record, standing) =>
    .fail (.refused record.kind record.place standing) store
  | .ok () =>
    let written := Journal.append store.journal (records.map Record.line)
    let store := { store with journal := written.state }
    match written.result with
    | .error fault =>
      .fail (.storage (Journal.location store.journal) fault) store written.notices
    | .ok () => .ok () { store with ledger := store.ledger.applyAll records } written.notices

/-- Appends one record. -/
def append (store : Store J) (record : Record) : Outcome Failure (Store J) Unit :=
  store.appendAll [record]

/-- Assigns a plot. -/
def assign (store : Store J) (place : Coord) (owner : Option String) (now : UInt64) :
    Outcome Failure (Store J) Unit :=
  store.append (.assign place owner now)

/-- Takes a plot from its holder.  The result says whether it had one; nothing is written
if not. -/
def markOrphan (store : Store J) (place : Coord) (now : UInt64) :
    Outcome Failure (Store J) Bool :=
  if store.ledger.isAssigned place then
    let written := store.append (.orphan place now)
    ⟨written.result.map fun _ => true, written.state, written.notices⟩
  else .ok false store

/-- Moves the spiral cursor. -/
def advanceCursor (store : Store J) (place : Coord) (now : UInt64) :
    Outcome Failure (Store J) Unit :=
  store.append (.advance place now)

/-- Replaces the journal by a shortest log that replays to the ledger, and numbers the
reservations anew.  The result is the number of lines. -/
def compact (store : Store J) (now : UInt64) : Outcome Failure (Store J) Nat :=
  let records := store.ledger.snapshot now
  let written := Journal.replace store.journal (records.map Record.line)
  let store := { store with journal := written.state }
  match written.result with
  | .error fault =>
    .fail (.storage (Journal.location store.journal) fault) store written.notices
  | .ok () =>
    let cleared : Ledger := { cursor := store.ledger.cursor }
    .ok records.length
      { store with ledger := cleared.applyAll records, corrupt := 0 } written.notices

end Store

end IslandPlots
