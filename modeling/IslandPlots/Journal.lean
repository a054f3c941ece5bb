import IslandPlots.Notice

/-!
# Journals

A journal keeps the lines of the reservation log.  A `Journal` is given by four operations:
where it is, what it holds, appending lines at its end, and replacing all lines by others.
Both writing operations either acknowledge or refuse; what they leave in the journal is
part of the result in either case.
-/

namespace IslandPlots

/-- The result of an operation on a state: what the caller gets or why the operation
failed, the state after it, and the notices on the way. -/
structure Outcome (ε σ α : Type) where
  result : Except ε α
  state : σ
  notices : List Notice := []

namespace Outcome

variable {ε ε' σ τ α : Type}

/-- A success. -/
def ok (value : α) (state : σ) (notices : List Notice := []) : Outcome ε σ α :=
  ⟨.ok value, state, notices⟩

/-- A failure. -/
def fail (error : ε) (state : σ) (notices : List Notice := []) : Outcome ε σ α :=
  ⟨.error error, state, notices⟩

@[simp]
theorem result_ok (value : α) (state : σ) (notices : List Notice) :
  (ok value state notices : Outcome ε σ α).result = .ok value
  := rfl

@[simp]
theorem state_ok (value : α) (state : σ) (notices : List Notice) :
  (ok value state notices : Outcome ε σ α).state = state
  := rfl

@[simp]
theorem result_fail (error : ε) (state : σ) (notices : List Notice) :
  (fail error state notices : Outcome ε σ α).result = .error error
  := rfl

@[simp]
theorem state_fail (error : ε) (state : σ) (notices : List Notice) :
  (fail error state notices : Outcome ε σ α).state = state
  := rfl

end Outcome

/-- The operations of a journal. -/
class Journal (J : Type) where
  /-- How messages name the journal. -/
  location : J → String
  /-- The lines in the journal, oldest first. -/
  lines : J → Except JournalFault (List String)
  /-- Adds lines at the end. -/
  append : J → List String → Outcome JournalFault J Unit
  /-- Replaces all lines. -/
  replace : J → List String → Outcome JournalFault J Unit

end IslandPlots
