import DotMatrix.Bus.Transaction

/-!
# Memory

What a transaction runs against. A memory answers reads without changing and is replaced by writes;
`Transaction.run` threads it through the tree. Main statements: `run_bind` (running one transaction
after another is running their sequence), `run_observe` (watching a run does not change it) and
`run_eq_store` (a run leaves the memory that its writes make, in order).
-/

namespace DotMatrix

/-- A 16-bit address space of bytes. -/
class Memory (μ : Type) where
  /-- The byte at an address. -/
  load : μ → UInt16 → UInt8
  /-- The memory after a byte is written to an address. -/
  store : μ → UInt16 → UInt8 → μ
  /-- What the memory reports about a write. -/
  onStore : μ → UInt16 → UInt8 → Option Event := fun _ _ _ => none

/-- One byte moved over the bus. -/
inductive Access where
  /-- A read at `address`. -/
  | read (address : UInt16)
  /-- A write of `value` to `address`. -/
  | write (address : UInt16) (value : UInt8)
deriving DecidableEq, Repr

namespace Access

/-- The address of an access. -/
def address : Access → UInt16
  | .read address => address
  | .write address _ => address

/-- Whether an access is a write. -/
def isWrite : Access → Bool
  | .read _ => false
  | .write _ _ => true

end Access

namespace Memory

variable {μ : Type} [Memory μ]

/-- The memory after an access. -/
def apply (memory : μ) : Access → μ
  | .read _ => memory
  | .write address value => store memory address value

/-- The `count` bytes from `address` on; addresses wrap at the end of the space. -/
def loadAll (memory : μ) (address : UInt16) : Nat → List UInt8
  | 0 => []
  | count + 1 => load memory address :: loadAll memory (address + 1) count

end Memory

namespace Transaction

open Memory

variable {μ α β : Type} [Memory μ]

/-- The result of a transaction on a memory, and the memory it leaves. -/
@[specialize] def run : Transaction α → μ → α × μ
  | .done result, memory => (result, memory)
  | .read address next, memory => (next (load memory address)).run memory
  | .write address value next, memory => next.run (store memory address value)
  | .report _ next, memory => next.run memory

/-- The accesses that a transaction makes on a memory, in order. -/
def accesses : Transaction α → μ → List Access
  | .done _, _ => []
  | .read address next, memory => .read address :: (next (load memory address)).accesses memory
  | .write address value next, memory =>
      .write address value :: next.accesses (store memory address value)
  | .report _ next, memory => next.accesses memory

/-- Runs a transaction and appends what it and the memory report to `log`. -/
def observe : Transaction α → μ → Array Event → (α × μ) × Array Event
  | .done result, memory, log => ((result, memory), log)
  | .read address next, memory, log => (next (load memory address)).observe memory log
  | .write address value next, memory, log =>
      let reported := onStore memory address value
      next.observe (store memory address value) (log ++ reported.toArray)
  | .report event next, memory, log => next.observe memory (log.push event)

/-- The addresses that a transaction writes to, each once, in increasing order. -/
def writtenAddresses (t : Transaction α) (memory : μ) : List UInt16 :=
  let written := (t.accesses memory).filter Access.isWrite
  (written.map Access.address).eraseDups.mergeSort (· ≤ ·)

/-- The written addresses whose byte is another one afterwards, with that byte. -/
def changes (t : Transaction α) (memory : μ) : List (UInt16 × UInt8) :=
  let after := (t.run memory).2
  (t.writtenAddresses memory).filterMap fun address =>
    if load after address = load memory address then none else some (address, load after address)

/-! ## Running -/

@[simp] theorem run_done (result : α) (memory : μ) :
    (Transaction.done result).run memory = (result, memory) := rfl

@[simp] theorem run_pure (result : α) (memory : μ) :
    (pure result : Transaction α).run memory = (result, memory) := rfl

@[simp] theorem run_bind (t : Transaction α) (f : α → Transaction β) (memory : μ) :
    (t >>= f).run memory = (f (t.run memory).1).run (t.run memory).2 := by
  change (t.andThen f).run memory = _
  induction t generalizing memory with
  | done => rfl
  | read _ _ ih => simp [andThen, run, ih]
  | write _ _ _ ih => simp [andThen, run, ih]
  | report _ _ ih => simp [andThen, run, ih]

@[simp] theorem run_map (f : α → β) (t : Transaction α) (memory : μ) :
    (f <$> t).run memory = (f (t.run memory).1, (t.run memory).2) := by
  rw [map_eq_pure_bind, run_bind, run_pure]

@[simp] theorem run_read (address : UInt16) (memory : μ) :
    (Bus.read address).run memory = (load memory address, memory) := rfl

@[simp] theorem run_write (address : UInt16) (value : UInt8) (memory : μ) :
    (Bus.write address value).run memory = ((), store memory address value) := rfl

@[simp] theorem run_report (event : Event) (memory : μ) :
    (Bus.report event).run memory = ((), memory) := rfl

/-- Transactions that leave the memory as it was give their results in order. -/
theorem run_ofFnM {count : Nat} (f : Fin count → Transaction α) (memory : μ)
    (unchanged : ∀ i, ((f i).run memory).2 = memory) :
    (Vector.ofFnM f).run memory = (Vector.ofFn fun i => ((f i).run memory).1, memory) := by
  induction count with
  | zero => simp
  | succ count ih =>
    rw [Vector.ofFnM_succ, run_bind, ih _ fun i => unchanged i.castSucc, run_bind, run_pure,
      Vector.ofFn_succ, unchanged]
    rfl

/-- Watching a run does not change it. -/
theorem run_observe (t : Transaction α) (memory : μ) (log : Array Event) :
    (t.observe memory log).1 = t.run memory := by
  induction t generalizing memory log with
  | done => rfl
  | read _ _ ih => simp [observe, run, ih]
  | write _ _ _ ih => simp [observe, run, ih]
  | report _ _ ih => simp [observe, run, ih]

/-! ## Accesses -/

@[simp] theorem accesses_pure (result : α) (memory : μ) :
    (pure result : Transaction α).accesses memory = [] := rfl

@[simp] theorem accesses_bind (t : Transaction α) (f : α → Transaction β) (memory : μ) :
    (t >>= f).accesses memory =
      t.accesses memory ++ (f (t.run memory).1).accesses (t.run memory).2 := by
  change (t.andThen f).accesses memory = _
  induction t generalizing memory with
  | done => rfl
  | read _ _ ih => simp [andThen, run, accesses, ih]
  | write _ _ _ ih => simp [andThen, run, accesses, ih]
  | report _ _ ih => simp [andThen, run, accesses, ih]

@[simp] theorem accesses_map (f : α → β) (t : Transaction α) (memory : μ) :
    (f <$> t).accesses memory = t.accesses memory := by
  rw [map_eq_pure_bind, accesses_bind, accesses_pure, List.append_nil]

@[simp] theorem accesses_read (address : UInt16) (memory : μ) :
    (Bus.read address).accesses memory = [.read address] := rfl

@[simp] theorem accesses_write (address : UInt16) (value : UInt8) (memory : μ) :
    (Bus.write address value).accesses memory = [.write address value] := rfl

@[simp] theorem accesses_report (event : Event) (memory : μ) :
    (Bus.report event).accesses memory = [] := rfl

/-- A run leaves the memory that its accesses make, one after the other. -/
theorem run_eq_store (t : Transaction α) (memory : μ) :
    (t.run memory).2 = (t.accesses memory).foldl apply memory := by
  induction t generalizing memory with
  | done => rfl
  | read _ _ ih => simp [run, accesses, apply, ih]
  | write _ _ _ ih => simp [run, accesses, apply, ih]
  | report _ _ ih => simp [run, accesses, ih]

end Transaction

end DotMatrix
