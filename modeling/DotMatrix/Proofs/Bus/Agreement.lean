import DotMatrix.Memory.Plain

/-!
# Memories that differ where nobody looks

Two memories may differ at some hidden addresses. A transaction that reads at none of them does the
same on both: it gets the same bytes back, so it takes the same way, and what it writes, at hidden
addresses or elsewhere, it writes to both.

Results:
1. `AgreeOutside.store`: a write to both memories makes no new difference.
2. `AgreeOutside.run`: a transaction that does not look at the hidden addresses ends alike on both.
-/

namespace DotMatrix

open Memory

variable {μ : Type} [Memory μ]

/-- The memories read alike but for the hidden addresses. -/
def AgreeOutside (hidden : UInt16 → Prop) (memory other : μ) : Prop :=
  ∀ address, ¬ hidden address → load memory address = load other address

/-- Nothing is read at a hidden address. -/
def Unread (hidden : UInt16 → Prop) (accesses : List Access) : Prop :=
  ∀ address, .read address ∈ accesses → ¬ hidden address

namespace AgreeOutside

variable {hidden : UInt16 → Prop} {memory other : μ}

theorem refl (hidden : UInt16 → Prop) (memory : μ) : AgreeOutside hidden memory memory :=
  fun _ _ => rfl

variable [PlainMemory μ]

theorem store (agree : AgreeOutside hidden memory other) (address : UInt16) (value : UInt8) :
    AgreeOutside hidden (store memory address value) (store other address value) := by
  intro seen visible
  rw [PlainMemory.load_store, PlainMemory.load_store, agree seen visible]

theorem run {α : Type} {t : Transaction α} (agree : AgreeOutside hidden memory other)
    (unread : Unread hidden (t.accesses memory)) :
    (t.run memory).1 = (t.run other).1 ∧
      AgreeOutside hidden (t.run memory).2 (t.run other).2 := by
  induction t generalizing memory other with
  | done result => exact ⟨rfl, agree⟩
  | read address next ih =>
    have same := agree address (unread address List.mem_cons_self)
    rw [Transaction.run, Transaction.run, ← same]
    exact ih _ agree fun later member => unread later (List.mem_cons_of_mem _ member)
  | write address value next ih =>
    exact ih (agree.store address value) fun later member =>
      unread later (List.mem_cons_of_mem _ member)
  | report event next ih => exact ih agree unread

end AgreeOutside

end DotMatrix
