import Mathlib.Data.Nat.Digits.Defs
import DotMatrix.Proofs.Cpu.Operands

/-!
# Sums and differences

What additions and subtractions of bytes compute, in plain numbers, and what they compute of numbers
of any length: a number is a list of digits, the least significant first, and the carry flag takes
what is left over at one digit to the next.

Results:
1. `Alu.toNat_add`, `Alu.carry_add`, `Alu.halfCarry_add` and the same for `Alu.subtract`: result and
   carries of a single operation.
2. `ofDigits_chain_add`, `ofDigits_chain_subtract`: where every digit comes out right with its carry,
   so does the number.
3. `chain_sum`, `chain_difference`: the numbers of two lists of bytes.
-/

namespace DotMatrix

open Memory

/-! ## Single bytes -/

theorem toNat_and_fifteen (byte : UInt8) : (byte &&& 0x0F).toNat = byte.toNat % 16 := by
  rw [UInt8.toNat_and]
  exact Nat.and_two_pow_sub_one_eq_mod byte.toNat 4

namespace Flags

theorem toNat_carryBit (flags : Flags) : flags.carryBit.toNat = flags.carry.toNat := by
  unfold carryBit
  cases flags.carry <;> rfl

theorem toNat_carryBit_le (flags : Flags) : flags.carryBit.toNat ≤ 1 := by
  rw [toNat_carryBit]
  exact Bool.toNat_le _

end Flags

namespace Alu

variable (a value : UInt8) {carryIn : UInt8}

theorem toNat_add :
    (add a value carryIn).1.toNat = (a.toNat + value.toNat + carryIn.toNat) % 256 := by
  simp [add]

theorem carry_add (bit : carryIn.toNat ≤ 1) :
    (add a value carryIn).2.carry = decide (256 ≤ a.toNat + value.toNat + carryIn.toNat) := by
  have := a.toNat_lt
  have := value.toNat_lt
  simp [add, UInt16.lt_iff_toNat_lt]
  omega

theorem halfCarry_add (bit : carryIn.toNat ≤ 1) :
    (add a value carryIn).2.halfCarry =
      decide (16 ≤ a.toNat % 16 + value.toNat % 16 + carryIn.toNat) := by
  simp only [add, Flags.halfCarry_ofConditions, gt_iff_lt, UInt8.lt_iff_toNat_lt, UInt8.toNat_add,
    toNat_and_fifteen, UInt8.reduceToNat, decide_eq_decide]
  omega

theorem toNat_subtract (bit : carryIn.toNat ≤ 1) :
    (subtract a value carryIn).1.toNat =
      (256 + 256 + a.toNat - value.toNat - carryIn.toNat) % 256 := by
  have := a.toNat_lt
  have := value.toNat_lt
  simp only [subtract, UInt8.toNat_sub]
  omega

theorem carry_subtract (bit : carryIn.toNat ≤ 1) :
    (subtract a value carryIn).2.carry = decide (a.toNat < value.toNat + carryIn.toNat) := by
  have := value.toNat_lt
  simp only [subtract, Flags.carry_ofConditions, UInt16.lt_iff_toNat_lt, UInt16.toNat_add,
    UInt8.toNat_toUInt16, decide_eq_decide]
  omega

theorem halfCarry_subtract (bit : carryIn.toNat ≤ 1) :
    (subtract a value carryIn).2.halfCarry =
      decide (a.toNat % 16 < value.toNat % 16 + carryIn.toNat) := by
  simp only [subtract, Flags.halfCarry_ofConditions, UInt8.lt_iff_toNat_lt, UInt8.toNat_add,
    toNat_and_fifteen, decide_eq_decide]
  omega

end Alu

/-! ## Digit by digit -/

/-- The processor and its memory after instructions whose opcodes were fetched. -/
def Cpu.executeAll {μ : Type} [Memory μ] (cpu : Cpu) (memory : μ) : List Instruction → Cpu × μ
  | [] => (cpu, memory)
  | instruction :: later =>
    let after := (cpu.execute instruction).run memory
    after.1.2.executeAll after.2 later

/-- What instructions make of the flags and of two bytes, the first in A and the second in B: the
byte in A and the flags, on a processor and a memory that may be anything else. -/
def Cpu.combine {μ : Type} [Memory μ] (cpu : Cpu) (memory : μ) (program : List Instruction)
    (flags : Flags) (operands : UInt8 × UInt8) : UInt8 × Flags :=
  let loaded := { cpu.registers with a := operands.1, b := operands.2, f := flags }
  let after := ({ cpu with registers := loaded }.executeAll memory program).1.registers
  (after.a, after.f)

section

variable {α : Type}

/-- An operation on each of some items, one after the other: every one starts from the flags that the
one before leaves. The bytes and flags that each leaves, and the flags in the end. -/
def chain (operation : Flags → α → UInt8 × Flags) (flags : Flags) :
    List α → List (UInt8 × Flags) × Flags
  | [] => ([], flags)
  | item :: items =>
    let first := operation flags item
    let others := chain operation first.2 items
    (first :: others.1, others.2)

variable {operation : Flags → α → UInt8 × Flags}

theorem length_chain (flags : Flags) (items : List α) :
    (chain operation flags items).1.length = items.length := by
  induction items generalizing flags with
  | nil => rfl
  | cons item items ih => exact congrArg Nat.succ (ih _)

/-- What every operation leaves, from whatever flags, each of the chain leaves. -/
theorem forall_mem_chain {p : UInt8 × Flags → Prop} {items : List α}
    (each : ∀ flags, ∀ item ∈ items, p (operation flags item)) (flags : Flags) :
    ∀ result ∈ (chain operation flags items).1, p result := by
  induction items generalizing flags with
  | nil => exact List.forall_mem_nil _
  | cons item items ih =>
    have later := ih (fun flags item member => each flags item (List.mem_cons_of_mem _ member))
    exact List.forall_mem_cons.2 ⟨each flags item List.mem_cons_self, later _⟩

variable {base : ℕ} {digit : UInt8 → ℕ} {first second : α → ℕ} {items : List α}

/-- Digits that are added with their carries add up to the sum of the numbers. -/
theorem ofDigits_chain_add
    (adds : ∀ flags, ∀ item ∈ items, let sum := operation flags item
      digit sum.1 + base * sum.2.carry.toNat = first item + second item + flags.carry.toNat)
    (flags : Flags) :
    let sum := chain operation flags items
    Nat.ofDigits base (sum.1.map fun result => digit result.1) +
        base ^ items.length * sum.2.carry.toNat =
      Nat.ofDigits base (items.map first) + Nat.ofDigits base (items.map second) +
        flags.carry.toNat := by
  induction items generalizing flags with
  | nil => simp [chain]
  | cons item items ih =>
    have here := adds flags item List.mem_cons_self
    have later := ih (fun flags item member => adds flags item (List.mem_cons_of_mem _ member))
      (operation flags item).2
    simp only [chain, List.map_cons, Nat.ofDigits_cons, List.length_cons, Nat.pow_succ',
      Nat.mul_assoc] at later ⊢
    calc
      _ = digit (operation flags item).1 + base * (Nat.ofDigits base (items.map first) +
            Nat.ofDigits base (items.map second) + (operation flags item).2.carry.toNat) := by
          rw [← later, Nat.mul_add, Nat.add_assoc]
      _ = _ := by
          rw [Nat.mul_add, Nat.mul_add]
          omega

/-- Digits that are subtracted with their borrows make the difference of the numbers. -/
theorem ofDigits_chain_subtract
    (subtracts : ∀ flags, ∀ item ∈ items, let difference := operation flags item
      digit difference.1 + second item + flags.carry.toNat =
        first item + base * difference.2.carry.toNat)
    (flags : Flags) :
    let difference := chain operation flags items
    Nat.ofDigits base (difference.1.map fun result => digit result.1) +
        Nat.ofDigits base (items.map second) + flags.carry.toNat =
      Nat.ofDigits base (items.map first) + base ^ items.length * difference.2.carry.toNat := by
  induction items generalizing flags with
  | nil => simp [chain]
  | cons item items ih =>
    have here := subtracts flags item List.mem_cons_self
    have later := ih (fun flags item member => subtracts flags item (List.mem_cons_of_mem _ member))
      (operation flags item).2
    simp only [chain, List.map_cons, Nat.ofDigits_cons, List.length_cons, Nat.pow_succ',
      Nat.mul_assoc] at later ⊢
    have scaled := congrArg (base * ·) later
    simp only [Nat.mul_add] at scaled
    omega

end

/-! ## What is left over -/

/-- The sum of numbers below a limit, with its carry. -/
theorem sum_of_balance {sum total limit : ℕ} {carry : Bool} (below : sum < limit)
    (balance : sum + limit * carry.toNat = total) :
    sum = total % limit ∧ (carry = true ↔ limit ≤ total) := by
  cases carry with
  | false =>
    simp only [Bool.toNat_false, Nat.mul_zero, Nat.add_zero] at balance
    subst balance
    exact ⟨(Nat.mod_eq_of_lt below).symm, by simpa using below⟩
  | true =>
    simp only [Bool.toNat_true, Nat.mul_one] at balance
    subst balance
    exact ⟨by rw [Nat.add_mod_right, Nat.mod_eq_of_lt below], by simp⟩

/-- The difference of numbers below a limit, with its borrow. -/
theorem difference_of_balance {difference minuend subtrahend limit : ℕ} {borrow : Bool}
    (below : difference < limit)
    (balance : difference + subtrahend = minuend + limit * borrow.toNat) :
    (difference : ℤ) = ((minuend : ℤ) - subtrahend) % limit ∧
      (borrow = true ↔ minuend < subtrahend) := by
  cases borrow with
  | false =>
    simp only [Bool.toNat_false, Nat.mul_zero, Nat.add_zero] at balance
    have exact_difference : (minuend : ℤ) - subtrahend = difference := by omega
    rw [exact_difference, Int.emod_eq_of_lt (Int.natCast_nonneg _) (Int.ofNat_lt.2 below)]
    exact ⟨rfl, by simp; omega⟩
  | true =>
    simp only [Bool.toNat_true, Nat.mul_one] at balance
    have wrapped : (minuend : ℤ) - subtrahend + limit = difference := by omega
    rw [← Int.add_emod_right, wrapped,
      Int.emod_eq_of_lt (Int.natCast_nonneg _) (Int.ofNat_lt.2 below)]
    exact ⟨rfl, by simp; omega⟩

/-! ## Numbers of any length -/

/-- The number of bytes, the least significant first, each of them read as a digit. -/
def number (base : ℕ) (digit : UInt8 → ℕ) (bytes : List UInt8) : ℕ :=
  Nat.ofDigits base (bytes.map digit)

section

variable {base : ℕ} {digit : UInt8 → ℕ}

theorem number_lt (large : 1 < base) {bytes : List UInt8}
    (below : ∀ byte ∈ bytes, digit byte < base) :
    number base digit bytes < base ^ bytes.length := by
  have bound := Nat.ofDigits_lt_base_pow_length large (List.forall_mem_map.2 below)
  rwa [List.length_map] at bound

variable {xs ys : List UInt8}

/-- The numbers of two lists, when their bytes are taken in pairs. -/
theorem number_zip (same : xs.length = ys.length) :
    Nat.ofDigits base ((xs.zip ys).map fun pair => digit pair.1) = number base digit xs ∧
      Nat.ofDigits base ((xs.zip ys).map fun pair => digit pair.2) = number base digit ys := by
  constructor
  · rw [number, ← Function.comp_def digit Prod.fst, ← List.map_map,
      List.map_fst_zip (Nat.le_of_eq same)]
  · rw [number, ← Function.comp_def digit Prod.snd, ← List.map_map,
      List.map_snd_zip (Nat.le_of_eq same.symm)]

theorem length_zip (same : xs.length = ys.length) : (xs.zip ys).length = xs.length := by
  rw [List.length_zip, same, Nat.min_self]

variable {operation : Flags → UInt8 × UInt8 → UInt8 × Flags}

/-- The bytes that a chain leaves, where each of them is a digit. -/
theorem number_chain (large : 1 < base) (same : xs.length = ys.length)
    (below : ∀ flags, ∀ pair ∈ xs.zip ys, digit (operation flags pair).1 < base) (flags : Flags) :
    let results := (chain operation flags (xs.zip ys)).1
    let bytes := results.map Prod.fst
    bytes.length = xs.length ∧ number base digit bytes < base ^ xs.length ∧
      Nat.ofDigits base (results.map fun result => digit result.1) = number base digit bytes := by
  intro results bytes
  have length : bytes.length = xs.length := by rw [List.length_map, length_chain, length_zip same]
  have digits : ∀ byte ∈ bytes, digit byte < base :=
    List.forall_mem_map.2 (forall_mem_chain below flags)
  refine ⟨length, length ▸ number_lt large digits, ?_⟩
  rw [number, List.map_map]
  rfl

/-- Two numbers are added digit by digit, in pairs. -/
theorem chain_sum (large : 1 < base) (same : xs.length = ys.length)
    (adds : ∀ flags, ∀ pair ∈ xs.zip ys, let sum := operation flags pair
      digit sum.1 < base ∧ digit sum.1 + base * sum.2.carry.toNat =
        digit pair.1 + digit pair.2 + flags.carry.toNat)
    (flags : Flags) :
    let total := number base digit xs + number base digit ys + flags.carry.toNat
    let sum := chain operation flags (xs.zip ys)
    let bytes := sum.1.map Prod.fst
    bytes.length = xs.length ∧ number base digit bytes = total % base ^ xs.length ∧
      (sum.2.carry = true ↔ base ^ xs.length ≤ total) := by
  intro total sum bytes
  obtain ⟨length, below, digits⟩ :=
    number_chain large same (fun flags pair member => (adds flags pair member).1) flags
  have balance := ofDigits_chain_add (fun flags pair member => (adds flags pair member).2) flags
  dsimp only at balance
  rw [digits, (number_zip same).1, (number_zip same).2, length_zip same] at balance
  exact ⟨length, sum_of_balance below balance⟩

/-- One number is subtracted from another digit by digit, in pairs. -/
theorem chain_difference (large : 1 < base) (same : xs.length = ys.length)
    (subtracts : ∀ flags, ∀ pair ∈ xs.zip ys, let difference := operation flags pair
      digit difference.1 < base ∧ digit difference.1 + digit pair.2 + flags.carry.toNat =
        digit pair.1 + base * difference.2.carry.toNat)
    (flags : Flags) :
    let minuend := number base digit xs
    let subtrahend := number base digit ys + flags.carry.toNat
    let difference := chain operation flags (xs.zip ys)
    let bytes := difference.1.map Prod.fst
    bytes.length = xs.length ∧
      (number base digit bytes : ℤ) = ((minuend : ℤ) - subtrahend) % (base ^ xs.length : ℕ) ∧
      (difference.2.carry = true ↔ minuend < subtrahend) := by
  intro minuend subtrahend difference bytes
  obtain ⟨length, below, digits⟩ :=
    number_chain large same (fun flags pair member => (subtracts flags pair member).1) flags
  have balance :=
    ofDigits_chain_subtract (fun flags pair member => (subtracts flags pair member).2) flags
  dsimp only at balance
  rw [digits, (number_zip same).1, (number_zip same).2, length_zip same, Nat.add_assoc] at balance
  exact ⟨length, difference_of_balance below balance⟩

end

end DotMatrix
