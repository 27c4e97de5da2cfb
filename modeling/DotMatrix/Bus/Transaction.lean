import DotMatrix.Log.Event

/-!
# Transactions

What a processor, a display or a serial port does on the bus, before any memory is attached: a tree
in which every read branches on the byte that comes back. Because the accesses are nodes of the
tree, "which addresses does this touch", "how many accesses does it make" and "what does it leave in
memory" are three readings of one definition (`accesses`, `run` and `observe` in `Bus/Memory`), and
a fact about all of them is one induction over the tree.
-/

namespace DotMatrix

/-- A computation that reads and writes bytes on the bus and ends with a result. -/
inductive Transaction (α : Type) : Type where
  /-- The work is finished. -/
  | done (result : α)
  /-- Read the byte at `address` and go on with it. -/
  | read (address : UInt16) (next : UInt8 → Transaction α)
  /-- Write `value` to `address` and go on. -/
  | write (address : UInt16) (value : UInt8) (next : Transaction α)
  /-- Report `event`; memory is not involved. -/
  | report (event : Event) (next : Transaction α)

namespace Transaction

variable {α β γ : Type}

/-- Performs `t`, then what `f` makes of its result. -/
def andThen : Transaction α → (α → Transaction β) → Transaction β
  | .done result, f => f result
  | .read address next, f => .read address fun value => (next value).andThen f
  | .write address value next, f => .write address value (next.andThen f)
  | .report event next, f => .report event (next.andThen f)

instance : Monad Transaction where
  pure := .done
  bind := andThen

theorem andThen_done (t : Transaction α) : t.andThen .done = t := by
  induction t with
  | done => rfl
  | read _ _ ih => simp [andThen, ih]
  | write _ _ _ ih => simp [andThen, ih]
  | report _ _ ih => simp [andThen, ih]

theorem andThen_assoc (t : Transaction α) (f : α → Transaction β) (g : β → Transaction γ) :
    (t.andThen f).andThen g = t.andThen fun result => (f result).andThen g := by
  induction t with
  | done => rfl
  | read _ _ ih => simp [andThen, ih]
  | write _ _ _ ih => simp [andThen, ih]
  | report _ _ ih => simp [andThen, ih]

instance : LawfulMonad Transaction :=
  LawfulMonad.mk' Transaction andThen_done (fun _ _ => rfl) andThen_assoc

end Transaction

/-! ## Single accesses -/

namespace Bus

/-- Reads the byte at `address`. -/
def read (address : UInt16) : Transaction UInt8 := .read address .done

/-- Writes `value` to `address`. -/
def write (address : UInt16) (value : UInt8) : Transaction Unit := .write address value (.done ())

/-- Reports an event. -/
def report (event : Event) : Transaction Unit := .report event (.done ())

end Bus

end DotMatrix
