import DotMatrix.Bus.Memory

/-!
# Calculations that may break off

The console counts in numbers of a few bits. Where a calculation is meant to wrap around or to stop
at the greatest number it says so; anywhere else a result that does not fit, a shift by all bits of
a number or more, and an index behind the end of an array are faults, and the calculation breaks
off. Here are the operations that look out for them. A calculation on the bus is a transaction that
may break off; its outcome on a memory is a result with the memory that is left, or a fault.

Results:
1. `Checked.add_eq_ok`, `Checked.sub_eq_ok`, `Checked.mul_eq_ok`: an operation gives the number that
   is the exact result, if there is one. `Checked.count_eq_ok`: a counter that is not moved on too
   far gives the number of its steps.
2. `CheckedTransaction.outcome_bind`, `CheckedTransaction.outcome_ofFnM`: outcomes one after the
   other.
-/

namespace DotMatrix

/-- Why a calculation breaks off. -/
inductive Fault where
  /-- A result does not fit, or a shift is too far. -/
  | overflow
  /-- There is nothing at an index. -/
  | outOfBounds
deriving DecidableEq, Repr

/-- The result of a calculation, unless it breaks off. -/
abbrev Checked := Except Fault

/-- Numbers of a fixed width: the integers from a least one to a greatest one. -/
class FixedWidth (α : Type) where
  least : Int
  greatest : Int
  /-- The integer that a number stands for. -/
  toInt : α → Int
  /-- The number for an integer, if that is not too small or too great. -/
  ofInt : Int → α
  ofInt_toInt : ∀ number, ofInt (toInt number) = number
  toInt_ofInt : ∀ value, least ≤ value → value ≤ greatest → toInt (ofInt value) = value
  bounds : ∀ number, least ≤ toInt number ∧ toInt number ≤ greatest

namespace FixedWidth

/-- Numbers without a sign. -/
@[reducible] def unsigned {α : Type} (size : Nat) (toNat : α → Nat) (ofNat : Nat → α)
    (ofNat_toNat : ∀ {number}, ofNat (toNat number) = number)
    (toNat_ofNat : ∀ {value}, value < size → toNat (ofNat value) = value)
    (toNat_lt : ∀ number, toNat number < size) : FixedWidth α where
  least := 0
  greatest := size - 1
  toInt number := toNat number
  ofInt value := ofNat value.toNat
  ofInt_toInt _ := ofNat_toNat
  toInt_ofInt value small great := by
    rw [toNat_ofNat (by omega)]
    exact Int.toNat_of_nonneg small
  bounds number := by
    have := toNat_lt number
    omega

instance : FixedWidth UInt8 :=
  unsigned UInt8.size UInt8.toNat .ofNat @UInt8.ofNat_toNat @UInt8.toNat_ofNat_of_lt'
    UInt8.toNat_lt_size

instance : FixedWidth UInt16 :=
  unsigned UInt16.size UInt16.toNat .ofNat @UInt16.ofNat_toNat @UInt16.toNat_ofNat_of_lt'
    UInt16.toNat_lt_size

instance : FixedWidth UInt32 :=
  unsigned UInt32.size UInt32.toNat .ofNat @UInt32.ofNat_toNat @UInt32.toNat_ofNat_of_lt'
    UInt32.toNat_lt_size

instance : FixedWidth UInt64 :=
  unsigned UInt64.size UInt64.toNat .ofNat @UInt64.ofNat_toNat @UInt64.toNat_ofNat_of_lt'
    UInt64.toNat_lt_size

instance : FixedWidth Int16 where
  least := -32768
  greatest := 32767
  toInt := Int16.toInt
  ofInt := .ofInt
  ofInt_toInt := Int16.ofInt_toInt
  toInt_ofInt value small great := Int16.toInt_ofInt_of_le small (by omega)
  bounds number := by
    have := number.le_toInt
    have := number.toInt_lt
    omega

@[simp] theorem toInt_byte (number : UInt8) : toInt number = number.toNat := rfl

@[simp] theorem toInt_word (number : UInt16) : toInt number = number.toNat := rfl

@[simp] theorem toInt_double (number : UInt32) : toInt number = number.toNat := rfl

@[simp] theorem toInt_quad (number : UInt64) : toInt number = number.toNat := rfl

@[simp] theorem toInt_signed (number : Int16) : toInt number = number.toInt := rfl

end FixedWidth

/-! ## Operations -/

namespace Checked

@[simp] theorem ok_bind {α β : Type} (result : α) (f : α → Checked β) :
    (Except.ok result : Checked α) >>= f = f result := rfl

@[simp] theorem map_ok {α β : Type} (f : α → β) (result : α) :
    Except.map f (Except.ok result : Checked α) = .ok (f result) := rfl

section

variable {α : Type} [FixedWidth α]

open FixedWidth

/-- The number for an integer. -/
def exact (value : Int) : Checked α :=
  if least α ≤ value ∧ value ≤ greatest α then .ok (ofInt value) else .error .overflow

def add (a b : α) : Checked α := exact (toInt a + toInt b)

def sub (a b : α) : Checked α := exact (toInt a - toInt b)

def mul (a b : α) : Checked α := exact (toInt a * toInt b)

/-- A number comes out only if it is the integer asked for. -/
theorem exact_eq_ok_iff {value : Int} {number : α} :
    exact value = .ok number ↔ toInt number = value := by
  unfold exact
  constructor
  · intro found
    split at found
    · rename_i fits
      cases found
      exact toInt_ofInt value fits.1 fits.2
    · cases found
  · rintro rfl
    rw [if_pos (bounds number), ofInt_toInt]

example : (exact 256 : Checked UInt8) = .error .overflow := rfl

variable {a b c : α}

theorem add_eq_ok (sum : toInt c = toInt a + toInt b) : add a b = .ok c := exact_eq_ok_iff.2 sum

theorem sub_eq_ok (difference : toInt c = toInt a - toInt b) : sub a b = .ok c :=
  exact_eq_ok_iff.2 difference

theorem mul_eq_ok (product : toInt c = toInt a * toInt b) : mul a b = .ok c :=
  exact_eq_ok_iff.2 product

/-- A counter that starts at zero and has been moved on so many times. -/
def count : Nat → Checked α
  | 0 => exact 0
  | steps + 1 => do
    let number ← count steps
    add number (ofInt 1)

theorem count_eq_ok {steps : Nat} (low : least α ≤ 0) (high : steps ≤ greatest α) :
    (count steps : Checked α) = .ok (ofInt steps) := by
  induction steps with
  | zero => exact if_pos ⟨low, high⟩
  | succ steps ih =>
    have value (number : Nat) (small : number ≤ steps + 1) : toInt (ofInt number : α) = number :=
      toInt_ofInt _ (by omega) (by omega)
    rw [count, ih (by omega), ok_bind]
    refine add_eq_ok ?_
    rw [value _ (Nat.le_refl _), value _ (Nat.le_succ _)]
    exact congrArg ((steps : Int) + ·) (value 1 (by omega)).symm

end

/-- A counter of 64 bits that has room takes any number of 32 bits. -/
theorem add_widened {total number : Nat} (room : total < UInt64.size - UInt32.size)
    (small : number < UInt32.size) :
    add (UInt64.ofNat total) (UInt32.ofNat number).toUInt64 = .ok (.ofNat (total + number)) := by
  have widened : (UInt32.ofNat number).toNat = number := UInt32.toNat_ofNat_of_lt' small
  refine add_eq_ok ?_
  simp only [UInt64.size, UInt32.size] at room small
  simp only [FixedWidth.toInt_quad, UInt32.toNat_toUInt64, widened, UInt64.toNat_ofNat']
  omega

/-- A byte shifted to the left. -/
def shiftLeft (byte places : UInt8) : Checked UInt8 :=
  if places < 8 then .ok (byte <<< places) else .error .overflow

/-- A byte shifted to the right. -/
def shiftRight (byte places : UInt8) : Checked UInt8 :=
  if places < 8 then .ok (byte >>> places) else .error .overflow

section

variable {α : Type} {count : Nat}

/-- The value at an index. -/
def get (values : Vector α count) (index : Nat) : Checked α :=
  if inside : index < count then .ok values[index] else .error .outOfBounds

/-- The values with another one at an index. -/
def set (values : Vector α count) (index : Nat) (value : α) : Checked (Vector α count) :=
  if inside : index < count then .ok (values.set index value) else .error .outOfBounds

theorem get_eq_ok (values : Vector α count) {index : Nat} (inside : index < count) :
    get values index = .ok values[index] := dif_pos inside

theorem set_eq_ok (values : Vector α count) {index : Nat} (inside : index < count) (value : α) :
    set values index value = .ok (values.set index value) := dif_pos inside

example : get #v[3, 4] 2 = .error .outOfBounds := rfl

end

end Checked

/-! ## Calculations on the bus -/

/-- A transaction that may break off. -/
abbrev CheckedTransaction := ExceptT Fault Transaction

namespace CheckedTransaction

variable {μ α β : Type} [Memory μ]

/-- What a transaction comes to on a memory. -/
def outcome (t : CheckedTransaction α) (memory : μ) : Checked (α × μ) :=
  let after := t.run.run memory
  after.1.map (·, after.2)

@[simp] theorem outcome_pure (result : α) (memory : μ) :
    (pure result : CheckedTransaction α).outcome memory = .ok (result, memory) := rfl

@[simp] theorem outcome_lift (t : Transaction α) (memory : μ) :
    (liftM t : CheckedTransaction α).outcome memory = .ok (t.run memory) := by
  have run : (ExceptT.lift t : CheckedTransaction α).run.run memory =
      (.ok (t.run memory).1, (t.run memory).2) := by
    rw [ExceptT.run_lift, Transaction.run_map]
  change outcome (ExceptT.lift t) memory = _
  rw [outcome, run]
  rfl

@[simp] theorem outcome_check (result : Checked α) (memory : μ) :
    (liftM result : CheckedTransaction α).outcome memory = result.map (·, memory) := rfl

@[simp] theorem outcome_bind (t : CheckedTransaction α) (f : α → CheckedTransaction β)
    (memory : μ) :
    (t >>= f).outcome memory = t.outcome memory >>= fun after => (f after.1).outcome after.2 := by
  unfold outcome
  rw [ExceptT.run_bind, Transaction.run_bind]
  rcases t.run.run memory with ⟨result, after⟩
  cases result <;> rfl

/-- A result is handed on. -/
theorem outcome_bind_check {result : Checked α} {value : α} (found : result = .ok value)
    (f : α → CheckedTransaction β) (memory : μ) :
    (liftM result >>= f).outcome memory = (f value).outcome memory := by
  rw [found]
  rfl

/-- What a transaction gives is handed on, with the memory that it leaves. -/
theorem outcome_bind_lift (t : Transaction α) (f : α → CheckedTransaction β) (memory : μ) :
    (liftM t >>= f).outcome memory = (f (t.run memory).1).outcome (t.run memory).2 := by
  rw [outcome_bind, outcome_lift]
  rfl

@[simp] theorem outcome_map (f : α → β) (t : CheckedTransaction α) (memory : μ) :
    (f <$> t).outcome memory = (t.outcome memory).map fun after => (f after.1, after.2) := by
  rw [map_eq_pure_bind, outcome_bind]
  cases t.outcome memory <;> rfl

/-- Calculations that all succeed and leave the memory alone give their results in order. -/
theorem outcome_ofFnM {count : Nat} {f : Fin count → CheckedTransaction α} {g : Fin count → α}
    {memory : μ} (each : ∀ i, (f i).outcome memory = .ok (g i, memory)) :
    (Vector.ofFnM f).outcome memory = .ok (Vector.ofFn g, memory) := by
  induction count with
  | zero => simp
  | succ count ih =>
    rw [Vector.ofFnM_succ, outcome_bind, ih fun i => each i.castSucc]
    change ((do let last ← f (Fin.last count); pure _ : CheckedTransaction _)).outcome memory = _
    rw [outcome_bind, each, Vector.ofFn_succ]
    rfl

end CheckedTransaction

end DotMatrix
