import DotMatrix.Memory.Flat
import DotMatrix.Proofs.Cpu.Sums

/-!
# Numbers of many bytes

ADC and SBC take the carry in that the operation before left. So the bytes of two numbers, however
many there are, are added or subtracted one after the other, the least significant first. What is
left over in the end is in the carry flag, and a subtraction undoes an addition that started from the
same carry.

Results:
1. `Cpu.combine_adc`, `Cpu.combine_sbc`: one byte, with the carry before and after.
2. `long_sum`, `long_difference`: numbers of any length.
3. `long_arithmetic`: both, and the one undone by the other.
-/

namespace DotMatrix

open Memory

/-- The number of some bytes, the least significant first. -/
def byteNumber (bytes : List UInt8) : ℕ := number 256 UInt8.toNat bytes

theorem byteNumber_lt (bytes : List UInt8) : byteNumber bytes < 256 ^ bytes.length :=
  number_lt (by decide) fun byte _ => byte.toNat_lt

/-- Lists of the same length with the same number are the same. -/
theorem eq_of_byteNumber_eq {xs ys : List UInt8} (same : xs.length = ys.length)
    (equal : byteNumber xs = byteNumber ys) : xs = ys := by
  have below (bytes : List UInt8) : ∀ digit ∈ bytes.map UInt8.toNat, digit < 256 :=
    List.forall_mem_map.2 fun byte _ => byte.toNat_lt
  have digits : xs.map UInt8.toNat = ys.map UInt8.toNat :=
    Nat.ofDigits_inj_of_len_eq (by decide) (by simpa using same) (below xs) (below ys) equal
  exact (List.map_inj_right fun _ _ => UInt8.toNat_inj.1).1 digits

/-- An operation on the bytes in A and B. -/
def byteProgram (operation : Arithmetic) : List Instruction :=
  [.arithmetic operation (.operand (.register .b))]

section

variable {μ : Type} [Memory μ]

namespace Cpu

variable (cpu : Cpu) (memory : μ) (flags : Flags) (operands : UInt8 × UInt8)

theorem combine_byteProgram (operation : Arithmetic) :
    cpu.combine memory (byteProgram operation) flags operands =
      Alu.combine operation flags operands.1 operands.2 := rfl

theorem combine_adc :
    let sum := cpu.combine memory (byteProgram .adc) flags operands
    sum.1.toNat + 256 * sum.2.carry.toNat =
      operands.1.toNat + operands.2.toNat + flags.carry.toNat := by
  have bit := flags.toNat_carryBit_le
  have carry := Alu.carry_add operands.1 operands.2 bit
  have := operands.1.toNat_lt
  have := operands.2.toNat_lt
  rw [combine_byteProgram]
  simp only [Alu.combine, carry, Alu.toNat_add, Flags.toNat_carryBit] at bit ⊢
  by_cases full : 256 ≤ operands.1.toNat + operands.2.toNat + flags.carry.toNat
  · simp only [full, decide_true, Bool.toNat_true]
    omega
  · simp only [full, decide_false, Bool.toNat_false]
    omega

theorem combine_sbc :
    let difference := cpu.combine memory (byteProgram .sbc) flags operands
    difference.1.toNat + operands.2.toNat + flags.carry.toNat =
      operands.1.toNat + 256 * difference.2.carry.toNat := by
  have bit := flags.toNat_carryBit_le
  have carry := Alu.carry_subtract operands.1 operands.2 bit
  have result := Alu.toNat_subtract operands.1 operands.2 bit
  have := operands.1.toNat_lt
  have := operands.2.toNat_lt
  rw [combine_byteProgram]
  simp only [Alu.combine, carry, result, Flags.toNat_carryBit] at bit ⊢
  by_cases short : operands.1.toNat < operands.2.toNat + flags.carry.toNat
  · simp only [short, decide_true, Bool.toNat_true]
    omega
  · simp only [short, decide_false, Bool.toNat_false]
    omega

end Cpu

variable {xs ys : List UInt8} (cpu : Cpu) (memory : μ) (flags : Flags)

/-- ADC, byte by byte. -/
theorem long_sum (same : xs.length = ys.length) :
    let total := byteNumber xs + byteNumber ys + flags.carry.toNat
    let sum := chain (cpu.combine memory (byteProgram .adc)) flags (xs.zip ys)
    let bytes := sum.1.map Prod.fst
    bytes.length = xs.length ∧ byteNumber bytes = total % 256 ^ xs.length ∧
      (sum.2.carry = true ↔ 256 ^ xs.length ≤ total) :=
  chain_sum (by decide) same
    (fun flags pair _ => ⟨UInt8.toNat_lt _, cpu.combine_adc memory flags pair⟩) flags

/-- SBC, byte by byte. -/
theorem long_difference (same : xs.length = ys.length) :
    let minuend := byteNumber xs
    let subtrahend := byteNumber ys + flags.carry.toNat
    let difference := chain (cpu.combine memory (byteProgram .sbc)) flags (xs.zip ys)
    let bytes := difference.1.map Prod.fst
    bytes.length = xs.length ∧
      (byteNumber bytes : ℤ) = ((minuend : ℤ) - subtrahend) % (256 ^ xs.length : ℕ) ∧
      (difference.2.carry = true ↔ minuend < subtrahend) :=
  chain_difference (by decide) same
    (fun flags pair _ => ⟨UInt8.toNat_lt _, cpu.combine_sbc memory flags pair⟩) flags

/-- What ADC adds, SBC takes away, when both start from the same carry. -/
theorem long_difference_sum (same : xs.length = ys.length) {other : Flags}
    (carry : other.carry = flags.carry) :
    let sum := chain (cpu.combine memory (byteProgram .adc)) flags (xs.zip ys)
    let bytes := sum.1.map Prod.fst
    (chain (cpu.combine memory (byteProgram .sbc)) other (bytes.zip ys)).1.map Prod.fst = xs := by
  intro sum bytes
  obtain ⟨length, total, -⟩ := long_sum cpu memory flags same
  have places : bytes.length = xs.length := length
  obtain ⟨length', rest, -⟩ := long_difference cpu memory other (places.trans same)
  refine eq_of_byteNumber_eq (length'.trans places) (Int.ofNat.inj ?_)
  have added : byteNumber bytes = _ := total
  have left (x y : ℕ) : ((x + y : ℕ) : ℤ) - y = x := by omega
  calc
    _ = ((byteNumber bytes : ℤ) - (byteNumber ys + other.carry.toNat : ℕ)) %
          (256 ^ bytes.length : ℕ) := rest
    _ = (byteNumber xs : ℤ) % (256 ^ xs.length : ℕ) := by
        rw [added, places, carry, Int.natCast_mod, Int.emod_sub_emod, Nat.add_assoc, left]
    _ = byteNumber xs :=
        Int.emod_eq_of_lt (Int.natCast_nonneg _) (Int.ofNat_lt.2 (byteNumber_lt xs))

/-- ADC and SBC on the bytes of two numbers of the same length, the least significant first, with the
carry flag handed on from byte to byte: the bytes are those of the sum and of the difference, and the
carry in the end says whether the sum overflows, or the difference would be below zero. Taking the
second number away from the sum again, from the same carry, gives back the bytes of the first. The
rest of the processor, and the memory, do not matter. -/
theorem long_arithmetic (same : xs.length = ys.length) :
    let limit := 256 ^ xs.length
    let x := byteNumber xs
    let y := byteNumber ys
    let c := flags.carry.toNat
    let adds := chain (cpu.combine memory (byteProgram .adc))
    let subtracts := chain (cpu.combine memory (byteProgram .sbc))
    let sum := adds flags (xs.zip ys)
    let difference := subtracts flags (xs.zip ys)
    let sumBytes := sum.1.map Prod.fst
    let differenceBytes := difference.1.map Prod.fst
    (sumBytes.length = xs.length ∧ byteNumber sumBytes = (x + y + c) % limit ∧
      (sum.2.carry = true ↔ limit ≤ x + y + c)) ∧
    (differenceBytes.length = xs.length ∧
      (byteNumber differenceBytes : ℤ) = ((x : ℤ) - y - c) % limit ∧
      (difference.2.carry = true ↔ x < y + c)) ∧
    ∀ other : Flags, other.carry = flags.carry →
      (subtracts other (sumBytes.zip ys)).1.map Prod.fst = xs := by
  intro limit x y c adds subtracts sum difference sumBytes differenceBytes
  have total : (x : ℤ) - y - c = (x : ℤ) - (y + c : ℕ) := by omega
  refine ⟨long_sum cpu memory flags same, ?difference,
    fun other carry => long_difference_sum cpu memory flags same carry⟩
  rw [total]
  exact_mod_cast long_difference cpu memory flags same

end

/-- $00FF and $0001 with the carry set: the carry goes through both bytes of the sum, and SBC gives
back $00FF. -/
theorem long_arithmetic_carries :
    let flags := Cpu.postBoot.registers.f
    let xs : List UInt8 := [0xFF, 0x00]
    let ys : List UInt8 := [0x01, 0x00]
    let adds := chain (Cpu.postBoot.combine FlatMemory.blank (byteProgram .adc))
    let subtracts := chain (Cpu.postBoot.combine FlatMemory.blank (byteProgram .sbc))
    let sumBytes := (adds flags (xs.zip ys)).1.map Prod.fst
    xs.length = ys.length ∧ byteNumber xs = 0x00FF ∧ byteNumber ys = 0x0001 ∧
      flags.carry = true ∧ byteNumber sumBytes = 0x0101 ∧
      (subtracts flags (sumBytes.zip ys)).1.map Prod.fst = xs := by
  intro flags xs ys adds subtracts sumBytes
  have same : xs.length = ys.length := rfl
  obtain ⟨⟨-, total, -⟩, -, restored⟩ :=
    long_arithmetic Cpu.postBoot FlatMemory.blank flags same
  have first : byteNumber xs = 0x00FF := by decide
  have second : byteNumber ys = 0x0001 := by decide
  have carried : flags.carry = true := by decide
  rw [first, second, carried] at total
  exact ⟨same, first, second, carried, total, restored flags rfl⟩

end DotMatrix
