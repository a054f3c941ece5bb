import IslandPlots.Proofs.Allocator.Pooled
import IslandPlots.Proofs.Store.Run

/-!
# Allocators that agree with their journals

An allocator is coherent when its store is consistent and its pool is that of the ledger
(`Allocator.Coherent`).  What operations do to a coherent allocator is what they do to any that
has the pool of its ledger, and what they do to a consistent store.
-/

namespace IslandPlots

namespace Allocator

variable {J : Type} [Journal J] [LawfulJournal J]

open LawfulJournal (Sound Stuck Clean held)

/-- The store is consistent, the pool is that of its ledger, and no caller died. -/
structure Coherent (a : Allocator J) : Prop where
  consistent : a.store.Consistent a.settings.storageDir
  pool : a.pool = Pool.ofLedger a.ledger a.settings.exclusion
  alive : a.poisoned = false

namespace Coherent

variable {a : Allocator J} (h : a.Coherent)

include h

/-- No plot has two reservations. -/
theorem distinct :
  a.ledger.Distinct
  := h.consistent.distinct

/-- The pool of a coherent allocator is that of its ledger. -/
theorem pooled :
  a.Pooled
  := ⟨h.distinct, h.pool, h.alive⟩

/-- An allocator is coherent with every consistent store. -/
theorem withStore
    {store : Store J} (hstore : store.Consistent a.settings.storageDir) :
  (a.withStore store).Coherent
  := ⟨hstore, rfl, h.alive⟩

/-- What an append of records that can be written leaves is coherent. -/
theorem appendAll
    {records : List Record} (hbuilt : ∀ r ∈ records, r.Built) :
  (a.withStore (a.store.appendAll records).state).Coherent
  := h.withStore (h.consistent.of_appended hbuilt (Store.appended h.consistent.sound records))

end Coherent

end Allocator

end IslandPlots
