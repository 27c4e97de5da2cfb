import DotMatrix.Bus.Memory

/-!
# Transactions that only read

`Reads source t`: whatever bytes come back, the transaction `t` writes nothing and reads only at
addresses of `source`. Such a transaction leaves the memory alone, and what it computes depends on
nothing but the bytes at those addresses.

Results:
1. `Reads.accesses`: every access of a run is a read at such an address.
2. `Reads.run_eq`: memories, even of two kinds, that agree on the addresses give the same result.
-/

namespace DotMatrix.Transaction

open Memory

variable {α β μ ν : Type} [Memory μ] [Memory ν]

/-- Nothing is written, and only addresses of `source` are read. -/
def Reads (source : UInt16 → Prop) : Transaction α → Prop
  | .done _ => True
  | .read address next => source address ∧ ∀ value, (next value).Reads source
  | .write _ _ _ => False
  | .report _ next => next.Reads source

variable {source : UInt16 → Prop}

theorem Reads.pure (result : α) : (Pure.pure result : Transaction α).Reads source := trivial

theorem Reads.read {address : UInt16} (known : source address) : (Bus.read address).Reads source :=
  ⟨known, fun _ => trivial⟩

theorem Reads.bind {t : Transaction α} {f : α → Transaction β} (first : t.Reads source)
    (second : ∀ result, (f result).Reads source) : (t >>= f).Reads source := by
  change (t.andThen f).Reads source
  induction t with
  | done result => exact second result
  | read address next ih => exact ⟨first.1, fun value => ih value (first.2 value)⟩
  | write => exact first.elim
  | report event next ih => exact ih first

theorem Reads.map {t : Transaction α} (f : α → β) (first : t.Reads source) :
    (f <$> t).Reads source := by
  rw [map_eq_pure_bind]
  exact first.bind fun _ => .pure _

theorem Reads.ofFnM {count : Nat} {f : Fin count → Transaction α}
    (each : ∀ i, (f i).Reads source) : (Vector.ofFnM f).Reads source := by
  induction count with
  | zero =>
    rw [Vector.ofFnM_zero]
    exact .pure _
  | succ count ih =>
    rw [Vector.ofFnM_succ]
    exact (ih fun i => each i.castSucc).bind fun _ => (each _).bind fun _ => .pure _

theorem Reads.ite {condition : Prop} [Decidable condition] {t u : Transaction α}
    (first : t.Reads source) (second : u.Reads source) :
    (if condition then t else u).Reads source := by
  split
  · exact first
  · exact second

/-- In a run, every access is a read at an address of the source. -/
theorem Reads.accesses {t : Transaction α} (reads : t.Reads source) (memory : μ) :
    ∀ access ∈ t.accesses memory, ∃ address, access = .read address ∧ source address := by
  induction t with
  | done => exact fun access member => absurd member List.not_mem_nil
  | read address next ih =>
    intro access member
    rcases List.mem_cons.1 member with rfl | later
    · exact ⟨address, rfl, reads.1⟩
    · exact ih _ (reads.2 _) access later
  | write => exact reads.elim
  | report event next ih => exact ih reads

/-- The result depends on the bytes of the source alone, and the memory stays as it was. -/
theorem Reads.run_eq {t : Transaction α} (reads : t.Reads source) (memory : μ) (other : ν)
    (agree : ∀ address, source address → load memory address = load other address) :
    t.run memory = ((t.run other).1, memory) := by
  induction t with
  | done => rfl
  | read address next ih =>
    simp only [run]
    rw [agree address reads.1]
    exact ih _ (reads.2 _)
  | write => exact reads.elim
  | report event next ih => exact ih reads

end DotMatrix.Transaction
