import IslandPlots.Proofs.Journal.Writable
import IslandPlots.Proofs.Store.Writing

/-!
# Appending records one at a time

Records that are appended together are checked first, on the standings of their plots alone, and
then written and taken in.  When they are appended one at a time (`Store.appendEach`), each is
checked against the ledger that has taken in those before it.  On a journal that accepts writes both
come to the same end: either way the first record that cannot be taken in is refused with the same
failure (`Store.result_appendEach`, `Store.appendAll_of_refused`), and if there is none the store is
the same afterwards (`Store.state_appendEach`).
-/

namespace IslandPlots

open WritableJournal (Writable)

namespace Store

variable {J : Type} [Journal J]

/-- Appends records one at a time, up to the first that fails. -/
def appendEach (store : Store J) : List Record → Outcome Failure (Store J) Unit
  | [] => .ok () store
  | record :: rest =>
    let written := store.append record
    match written.result with
    | .error failure => .fail failure written.state written.notices
    | .ok () =>
      let done := appendEach written.state rest
      { done with notices := written.notices ++ done.notices }

/-- When the first record fails, those after it are not appended. -/
theorem appendEach_cons_of_error
    {store : Store J} {record : Record} {failure : Failure}
    (h : (store.append record).result = .error failure) (rest : List Record) :
  (store.appendEach (record :: rest)).result = .error failure
  := by
  unfold appendEach
  simp only [h]
  rfl

/-- When the first record does not fail, those after it are appended after it. -/
theorem appendEach_cons_of_ok
    {store : Store J} {record : Record} (h : (store.append record).result = .ok ())
    (rest : List Record) :
  (store.appendEach (record :: rest)).result
      = ((store.append record).state.appendEach rest).result
    ∧ (store.appendEach (record :: rest)).state
      = ((store.append record).state.appendEach rest).state
  := by
  rw [appendEach]
  simp only [h]
  exact ⟨trivial, trivial⟩

/-- Records that do not pass the check are refused, and nothing happens. -/
theorem appendAll_of_checkAll
    {store : Store J} {records : List Record} {record : Record} {standing : Option Standing}
    (h : Ledger.checkAll store.ledger.standing? records = .error (record, standing)) :
  store.appendAll records = .fail (.refused record.kind record.place standing) store
  := by
  unfold appendAll
  rw [h]

variable [WritableJournal J] {store : Store J} (h : Writable store.journal)

include h

/-! ### Records together -/

/-- On a journal that accepts writes, records that pass the check are appended and taken in. -/
theorem appendAll_of_writable
    {records : List Record} (haccepts : store.ledger.Accepts records) :
  (store.appendAll records).result = .ok ()
    ∧ (store.appendAll records).state = { store with
      journal := (Journal.append store.journal (records.map Record.line)).state
      ledger := store.ledger.applyAll records }
  := by
  rw [appendAll_of_accepts haccepts]
  simp only [WritableJournal.result_append h]
  exact ⟨rfl, rfl⟩

/-- A journal that accepts writes does so after an append of records. -/
theorem writable_appendAll (records : List Record) :
  Writable (store.appendAll records).state.journal
  := by
  rcases store.journal_appendAll records with hsame | happended
  · rw [hsame]
    exact h
  · rw [happended]
    exact WritableJournal.writable_append h _

/-- Records that are appended after others are checked as if all were appended together, and if they
pass the check it makes no difference. -/
theorem appendAll_appendAll
    {xs : List Record} (hxs : store.ledger.Accepts xs) (ys : List Record) :
  ((store.appendAll xs).state.appendAll ys).result = (store.appendAll (xs ++ ys)).result
    ∧ ((store.appendAll (xs ++ ys)).result = .ok () →
      ((store.appendAll xs).state.appendAll ys).state = (store.appendAll (xs ++ ys)).state)
  := by
  have hcheck := Ledger.checkAll_append hxs ys
  have hwritable := writable_appendAll h xs
  have hstate := (appendAll_of_writable h hxs).2
  rcases hys : Ledger.checkAll (store.ledger.applyAll xs).standing? ys
    with ⟨record, standing⟩ | ⟨⟨⟩⟩
  · have hfailed : (store.appendAll xs).state.appendAll ys
        = .fail (.refused record.kind record.place standing) (store.appendAll xs).state := by
      apply appendAll_of_checkAll
      rw [hstate]
      exact hys
    rw [appendAll_of_checkAll (hcheck.trans hys), hfailed]
    exact ⟨rfl, nofun⟩
  · have haccepts : (store.appendAll xs).state.ledger.Accepts ys := by
      rw [hstate]
      exact hys
    obtain ⟨hsecond, hlater⟩ := appendAll_of_writable hwritable haccepts
    obtain ⟨hboth, htogether⟩ := appendAll_of_writable h (hcheck.trans hys)
    have happend := WritableJournal.append_append h (xs.map Record.line) (ys.map Record.line)
    refine ⟨hsecond.trans hboth.symm, fun _ => ?_⟩
    rw [hlater, htogether, hstate, List.map_append, Ledger.applyAll_append, ← happend]

/-! ### Records one at a time -/

/-- Records that are appended one at a time fail as they do together. -/
theorem result_appendEach (records : List Record) :
  (store.appendEach records).result = (store.appendAll records).result
  := by
  induction records generalizing store with
  | nil =>
    have haccepts : store.ledger.Accepts [] := rfl
    exact (appendAll_of_writable h haccepts).1.symm
  | cons record rest ih =>
    rcases happly : store.ledger.apply record with rejection | after
    · have hcheck := Ledger.checkAll_cons_of_error happly
      have hfailed : (store.append record).result
          = .error (.refused record.kind record.place (store.ledger.standing? record.place)) := by
        rw [append, appendAll_of_checkAll (hcheck [])]
        rfl
      rw [appendEach_cons_of_error hfailed rest, appendAll_of_checkAll (hcheck rest)]
      rfl
    · have haccepts : store.ledger.Accepts [record] := Ledger.accepts_cons.2 ⟨after, happly, rfl⟩
      have hok : (store.append record).result = .ok () := (appendAll_of_writable h haccepts).1
      rw [(appendEach_cons_of_ok hok rest).1]
      exact (ih (writable_appendAll h [record])).trans (appendAll_appendAll h haccepts rest).1

/-- Records that are appended one at a time, if there are any and all are taken in, leave the store
that they leave together. -/
theorem state_appendEach
    {record : Record} {rest : List Record}
    (hok : (store.appendAll (record :: rest)).result = .ok ()) :
  (store.appendEach (record :: rest)).state = (store.appendAll (record :: rest)).state
  := by
  induction rest generalizing store record with
  | nil => exact (appendEach_cons_of_ok hok []).2
  | cons next rest ih =>
    have haccepts : store.ledger.Accepts [record] :=
      (ledger_appendAll_of_ok hok).1.take 1
    have hfirst : (store.append record).result = .ok () := (appendAll_of_writable h haccepts).1
    obtain ⟨hresult, hstate⟩ := appendAll_appendAll h haccepts (next :: rest)
    rw [(appendEach_cons_of_ok hfirst _).2]
    exact (ih (writable_appendAll h [record]) (hresult.trans hok)).trans (hstate hok)

/-- Records that were appended one at a time are taken in, and the journal goes on to accept
writes. -/
theorem appendEach_of_ok
    {records : List Record} (hok : (store.appendEach records).result = .ok ()) :
  store.ledger.Accepts records
    ∧ (store.appendEach records).state.ledger = store.ledger.applyAll records
    ∧ (store.appendEach records).state.corrupt = store.corrupt
    ∧ Writable (store.appendEach records).state.journal
  := by
  rw [result_appendEach h] at hok
  obtain ⟨haccepts, hledger⟩ := ledger_appendAll_of_ok hok
  rcases records with _ | ⟨record, rest⟩
  · exact ⟨haccepts, rfl, rfl, h⟩
  · rw [state_appendEach h hok]
    refine ⟨haccepts, hledger, ?_, writable_appendAll h _⟩
    rw [(appendAll_of_writable h haccepts).2]

/-- When one record at a time is appended and one of them is refused, the same failure refuses all
together, and nothing happens. -/
theorem appendAll_of_refused
    {before : List Record} (hbefore : (store.appendEach before).result = .ok ()) {record : Record}
    {failure : Failure}
    (hrefused : ((store.appendEach before).state.append record).result = .error failure)
    (after : List Record) :
  (∃ standing, failure = .refused record.kind record.place standing)
    ∧ store.appendAll (before ++ record :: after) = .fail failure store
  := by
  obtain ⟨haccepts, hledger, -, hwritable⟩ := appendEach_of_ok h hbefore
  rw [append] at hrefused
  rcases happly : (store.ledger.applyAll before).apply record with rejection | next
  · have hcheck := Ledger.checkAll_cons_of_error happly
    rw [appendAll_of_checkAll (by rw [hledger]; exact hcheck [])] at hrefused
    cases hrefused
    refine ⟨⟨_, rfl⟩, appendAll_of_checkAll ?_⟩
    exact (Ledger.checkAll_append haccepts _).trans (hcheck after)
  · have hpasses : (store.appendEach before).state.ledger.Accepts [record] := by
      rw [hledger]
      exact Ledger.accepts_cons.2 ⟨next, happly, rfl⟩
    cases (appendAll_of_writable hwritable hpasses).1.symm.trans hrefused

end Store

end IslandPlots
