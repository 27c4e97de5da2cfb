import Mathlib.Data.Nat.Digits.Defs
import DotMatrix.Memory.Flat
import DotMatrix.Proofs.Cpu.FlagRegister
import DotMatrix.Proofs.Cpu.Sums

/-!
# Decimal numbers

A byte with a decimal digit in each half stands for a number below 100. DAA makes such a byte of what
an addition or a subtraction of two of them left in the accumulator and in the flags, and its carry
is what the next two digits need. So decimal numbers of any length are added and subtracted byte by
byte, each operation followed by DAA.

Results:
1. `Alu.decimal_add`, `Alu.decimal_subtract`: two digits, with the carry before and after.
2. `decimal_arithmetic`: numbers of any length, as the processor's instructions work on them.
-/

namespace DotMatrix

open Memory

/-! ## Packed digits -/

/-- Both halves of the byte are decimal digits. -/
def IsPacked (byte : UInt8) : Prop := byte.toNat / 16 ≤ 9 ∧ byte.toNat % 16 ≤ 9

instance (byte : UInt8) : Decidable (IsPacked byte) := inferInstanceAs (Decidable (_ ∧ _))

/-- The number of the two digits in a byte. -/
def decimal (byte : UInt8) : ℕ := 10 * (byte.toNat / 16) + byte.toNat % 16

/-- The number of packed bytes, the least significant first. -/
def decimalNumber (bytes : List UInt8) : ℕ := Nat.ofDigits 100 (bytes.map decimal)

theorem decimal_lt {byte : UInt8} (digits : IsPacked byte) : decimal byte < 100 := by
  unfold decimal
  have := digits.1
  have := digits.2
  omega

/-! ## Adjusting a byte -/

namespace Alu

variable (flags : Flags) (a : UInt8)

/-- What is added or subtracted, from what was found about each of the two digits. -/
theorem toNat_adjustment :
    (adjustment flags a).toNat =
      (if flags.halfCarry = true ∨ flags.subtract = false ∧ 9 < a.toNat % 16 then 6 else 0) +
      (if flags.carry = true ∨ flags.subtract = false ∧ 153 < a.toNat then 96 else 0) := by
  have lower : 0x09 < a &&& 0x0F ↔ 9 < a.toNat % 16 := by
    rw [UInt8.lt_iff_toNat_lt, toNat_and_fifteen]
    rfl
  have upper : 0x99 < a ↔ 153 < a.toNat := UInt8.lt_iff_toNat_lt
  simp only [adjustment, gt_iff_lt, lower, upper, Bool.or_eq_true, Bool.and_eq_true,
    Bool.not_eq_true', decide_eq_true_eq]
  split <;> split <;> rfl

theorem toNat_decimalAdjust :
    (decimalAdjust flags a).1.toNat =
      if flags.subtract = true then (256 + a.toNat - (adjustment flags a).toNat) % 256
      else (a.toNat + (adjustment flags a).toNat) % 256 := by
  have := (adjustment flags a).toNat_lt
  simp only [decimalAdjust]
  split
  · rw [UInt8.toNat_sub]
    omega
  · rw [UInt8.toNat_add]

theorem carry_decimalAdjust :
    (decimalAdjust flags a).2.carry = decide (96 ≤ (adjustment flags a).toNat) := by
  simp only [decimalAdjust, Flags.carry_withZero, Flags.carry_withHalfCarry, Flags.carry_withCarry]
  exact decide_eq_decide.2 UInt8.le_iff_toNat_le

/-- The other flags: whether it was an addition or a subtraction is kept. -/
theorem flags_decimalAdjust :
    let adjusted := decimalAdjust flags a
    adjusted.2.halfCarry = false ∧ (adjusted.2.zero = true ↔ adjusted.1 = 0) ∧
      adjusted.2.subtract = flags.subtract := by
  simp [decimalAdjust]

variable {flags a} {value : UInt8}

/-- Two digits added to two digits, with a carry before and after. -/
theorem decimal_add (digits : IsPacked a) (digits' : IsPacked value) :
    let sum := combine .adc flags a value
    let adjusted := decimalAdjust sum.2 sum.1
    IsPacked adjusted.1 ∧
      decimal adjusted.1 + 100 * adjusted.2.carry.toNat =
        decimal a + decimal value + flags.carry.toNat := by
  intro sum adjusted
  have bit := flags.toNat_carryBit_le
  have result : sum.1.toNat = _ := toNat_add a value
  have carry : sum.2.carry = _ := carry_add a value bit
  have halfCarry : sum.2.halfCarry = _ := halfCarry_add a value bit
  have addition : sum.2.subtract = false := Flags.subtract_ofConditions _ _ _ _
  have adjust := toNat_adjustment sum.2 sum.1
  have byte : adjusted.1.toNat = _ := toNat_decimalAdjust sum.2 sum.1
  have out : adjusted.2.carry = _ := carry_decimalAdjust sum.2 sum.1
  rw [addition, if_neg Bool.false_ne_true] at byte
  rw [addition, carry, halfCarry, result] at adjust
  rw [Flags.toNat_carryBit] at bit result adjust
  rw [out]
  unfold IsPacked at digits digits' ⊢
  unfold decimal
  -- A digit is corrected exactly when the digits there do not add up to a digit.
  have lower : (16 ≤ a.toNat % 16 + value.toNat % 16 + flags.carry.toNat ∨
      9 < (a.toNat + value.toNat + flags.carry.toNat) % 256 % 16) ↔
      10 ≤ a.toNat % 16 + value.toNat % 16 + flags.carry.toNat := by
    omega
  have upper : (256 ≤ a.toNat + value.toNat + flags.carry.toNat ∨
      153 < (a.toNat + value.toNat + flags.carry.toNat) % 256) ↔
      100 ≤ 10 * (a.toNat / 16) + a.toNat % 16 +
        (10 * (value.toNat / 16) + value.toNat % 16) + flags.carry.toNat := by
    omega
  simp only [decide_eq_true_eq, true_and, lower, upper] at adjust
  split at adjust <;> split at adjust <;> simp [adjust] <;> omega

/-- Two digits subtracted from two digits, with a borrow before and after. -/
theorem decimal_subtract (digits : IsPacked a) (digits' : IsPacked value) :
    let difference := combine .sbc flags a value
    let adjusted := decimalAdjust difference.2 difference.1
    IsPacked adjusted.1 ∧
      decimal adjusted.1 + decimal value + flags.carry.toNat =
        decimal a + 100 * adjusted.2.carry.toNat := by
  intro difference adjusted
  have bit := flags.toNat_carryBit_le
  have result : difference.1.toNat = _ := toNat_subtract a value bit
  have carry : difference.2.carry = _ := carry_subtract a value bit
  have halfCarry : difference.2.halfCarry = _ := halfCarry_subtract a value bit
  have subtraction : difference.2.subtract = true := Flags.subtract_ofConditions _ _ _ _
  have adjust := toNat_adjustment difference.2 difference.1
  have byte : adjusted.1.toNat = _ := toNat_decimalAdjust difference.2 difference.1
  have out : adjusted.2.carry = _ := carry_decimalAdjust difference.2 difference.1
  rw [subtraction, if_pos rfl] at byte
  rw [subtraction, carry, halfCarry] at adjust
  rw [Flags.toNat_carryBit] at bit result adjust
  rw [out]
  unfold IsPacked at digits digits' ⊢
  unfold decimal
  simp only [decide_eq_true_eq, Bool.true_eq_false, false_and, or_false] at adjust
  split at adjust <;> split at adjust <;> simp [adjust] <;> omega

end Alu

/-! ## Numbers of any length -/

/-- An operation on the bytes in A and B, and then DAA. -/
def decimalProgram (operation : Arithmetic) : List Instruction :=
  [.arithmetic operation (.operand (.register .b)), .daa]

section

variable {μ : Type} [Memory μ]

namespace Cpu

variable (cpu : Cpu) (memory : μ) (flags : Flags) {operands : UInt8 × UInt8}

theorem combine_decimal (operation : Arithmetic) (operands : UInt8 × UInt8) :
    let result := Alu.combine operation flags operands.1 operands.2
    cpu.combine memory (decimalProgram operation) flags operands =
      Alu.decimalAdjust result.2 result.1 := rfl

theorem combine_decimal_adc (packed : IsPacked operands.1 ∧ IsPacked operands.2) :
    let sum := cpu.combine memory (decimalProgram .adc) flags operands
    IsPacked sum.1 ∧
      decimal sum.1 + 100 * sum.2.carry.toNat =
        decimal operands.1 + decimal operands.2 + flags.carry.toNat :=
  Alu.decimal_add packed.1 packed.2

theorem combine_decimal_sbc (packed : IsPacked operands.1 ∧ IsPacked operands.2) :
    let difference := cpu.combine memory (decimalProgram .sbc) flags operands
    IsPacked difference.1 ∧
      decimal difference.1 + decimal operands.2 + flags.carry.toNat =
        decimal operands.1 + 100 * difference.2.carry.toNat :=
  Alu.decimal_subtract packed.1 packed.2

end Cpu

variable {xs ys : List UInt8}

theorem packed_of_mem_zip (digits : ∀ x ∈ xs, IsPacked x) (digits' : ∀ y ∈ ys, IsPacked y)
    {pair : UInt8 × UInt8} (member : pair ∈ xs.zip ys) : IsPacked pair.1 ∧ IsPacked pair.2 :=
  ⟨digits _ (List.of_mem_zip member).1, digits' _ (List.of_mem_zip member).2⟩

/-- ADC with DAA, byte by byte. -/
theorem decimal_sum (cpu : Cpu) (memory : μ) (flags : Flags) (same : xs.length = ys.length)
    (digits : ∀ x ∈ xs, IsPacked x) (digits' : ∀ y ∈ ys, IsPacked y) :
    let total := decimalNumber xs + decimalNumber ys + flags.carry.toNat
    let sum := chain (cpu.combine memory (decimalProgram .adc)) flags (xs.zip ys)
    let bytes := sum.1.map Prod.fst
    (∀ byte ∈ bytes, IsPacked byte) ∧ bytes.length = xs.length ∧
      decimalNumber bytes = total % 100 ^ xs.length ∧
      (sum.2.carry = true ↔ 100 ^ xs.length ≤ total) := by
  intro total sum bytes
  have adds (flags : Flags) (pair : UInt8 × UInt8) (member : pair ∈ xs.zip ys) :=
    cpu.combine_decimal_adc memory flags (packed_of_mem_zip digits digits' member)
  have packed : ∀ byte ∈ bytes, IsPacked byte := List.forall_mem_map.2
    (forall_mem_chain (fun flags pair member => (adds flags pair member).1) flags)
  refine ⟨packed, ?_⟩
  exact chain_sum (by decide) same (fun flags pair member =>
    ⟨decimal_lt (adds flags pair member).1, (adds flags pair member).2⟩) flags

/-- SBC with DAA, byte by byte. -/
theorem decimal_difference (cpu : Cpu) (memory : μ) (flags : Flags) (same : xs.length = ys.length)
    (digits : ∀ x ∈ xs, IsPacked x) (digits' : ∀ y ∈ ys, IsPacked y) :
    let minuend := decimalNumber xs
    let subtrahend := decimalNumber ys + flags.carry.toNat
    let difference := chain (cpu.combine memory (decimalProgram .sbc)) flags (xs.zip ys)
    let bytes := difference.1.map Prod.fst
    (∀ byte ∈ bytes, IsPacked byte) ∧ bytes.length = xs.length ∧
      (decimalNumber bytes : ℤ) = ((minuend : ℤ) - subtrahend) % (100 ^ xs.length : ℕ) ∧
      (difference.2.carry = true ↔ minuend < subtrahend) := by
  intro minuend subtrahend difference bytes
  have subtracts (flags : Flags) (pair : UInt8 × UInt8) (member : pair ∈ xs.zip ys) :=
    cpu.combine_decimal_sbc memory flags (packed_of_mem_zip digits digits' member)
  have packed : ∀ byte ∈ bytes, IsPacked byte := List.forall_mem_map.2
    (forall_mem_chain (fun flags pair member => (subtracts flags pair member).1) flags)
  refine ⟨packed, ?_⟩
  exact chain_difference (by decide) same (fun flags pair member =>
    ⟨decimal_lt (subtracts flags pair member).1, (subtracts flags pair member).2⟩) flags

/-- What DAA leaves in the other flags, behind an operation of one kind. -/
theorem flags_chain_decimal (cpu : Cpu) (memory : μ) {operation : Arithmetic} {subtracts : Bool}
    (kind : ∀ flags a value, (Alu.combine operation flags a value).2.subtract = subtracts)
    (flags : Flags) (pairs : List (UInt8 × UInt8)) :
    ∀ result ∈ (chain (cpu.combine memory (decimalProgram operation)) flags pairs).1,
      result.2.halfCarry = false ∧ (result.2.zero = true ↔ result.1 = 0) ∧
        result.2.subtract = subtracts := by
  refine forall_mem_chain (fun flags pair _ => ?_) flags
  have adjusted := Alu.flags_decimalAdjust (Alu.combine operation flags pair.1 pair.2).2
    (Alu.combine operation flags pair.1 pair.2).1
  rw [kind] at adjusted
  rwa [cpu.combine_decimal]

/-- ADC and SBC, each with DAA behind it, on the bytes of two decimal numbers of the same length, the
least significant first, with the carry flag handed on from byte to byte: the bytes are those of the
sum and of the difference, and the carry in the end says whether the sum overflows, or the difference
would be below zero. Every DAA leaves the half-carry clear, the zero flag as its byte is, and the
subtraction flag as the operation left it. The rest of the processor, and the memory, do not
matter. -/
theorem decimal_arithmetic (cpu : Cpu) (memory : μ) (flags : Flags) (xs ys : List UInt8)
    (same : xs.length = ys.length) (digits : ∀ x ∈ xs, IsPacked x)
    (digits' : ∀ y ∈ ys, IsPacked y) :
    let limit := 100 ^ xs.length
    let x := decimalNumber xs
    let y := decimalNumber ys
    let c := flags.carry.toNat
    let sum := chain (cpu.combine memory (decimalProgram .adc)) flags (xs.zip ys)
    let difference := chain (cpu.combine memory (decimalProgram .sbc)) flags (xs.zip ys)
    let sumBytes := sum.1.map Prod.fst
    let differenceBytes := difference.1.map Prod.fst
    ((∀ byte ∈ sumBytes, IsPacked byte) ∧ sumBytes.length = xs.length ∧
      decimalNumber sumBytes = (x + y + c) % limit ∧
      (sum.2.carry = true ↔ limit ≤ x + y + c)) ∧
    ((∀ byte ∈ differenceBytes, IsPacked byte) ∧ differenceBytes.length = xs.length ∧
      (decimalNumber differenceBytes : ℤ) = ((x : ℤ) - y - c) % limit ∧
      (difference.2.carry = true ↔ x < y + c)) ∧
    (∀ result ∈ sum.1, result.2.halfCarry = false ∧ (result.2.zero = true ↔ result.1 = 0) ∧
      result.2.subtract = false) ∧
    (∀ result ∈ difference.1, result.2.halfCarry = false ∧
      (result.2.zero = true ↔ result.1 = 0) ∧ result.2.subtract = true) := by
  intro limit x y c sum difference sumBytes differenceBytes
  have total : (x : ℤ) - y - c = (x : ℤ) - (y + c : ℕ) := by omega
  refine ⟨decimal_sum cpu memory flags same digits digits', ?difference, ?sumFlags, ?otherFlags⟩
  case difference =>
    rw [total]
    exact_mod_cast decimal_difference cpu memory flags same digits digits'
  case sumFlags =>
    have added (flags : Flags) (a value : UInt8) :
        (Alu.combine .adc flags a value).2.subtract = false :=
      Flags.subtract_ofConditions _ _ _ _
    exact flags_chain_decimal cpu memory added flags _
  case otherFlags =>
    have subtracted (flags : Flags) (a value : UInt8) :
        (Alu.combine .sbc flags a value).2.subtract = true :=
      Flags.subtract_ofConditions _ _ _ _
    exact flags_chain_decimal cpu memory subtracted flags _

end

/-- The lower byte carries into the upper one in the sum, and borrows from it in the difference. -/
theorem decimal_arithmetic_carries :
    let flags := Cpu.postBoot.registers.f
    let xs : List UInt8 := [0x00, 0x20]
    let ys : List UInt8 := [0x99, 0x01]
    let sum := chain (Cpu.postBoot.combine FlatMemory.blank (decimalProgram .adc)) flags (xs.zip ys)
    let difference :=
      chain (Cpu.postBoot.combine FlatMemory.blank (decimalProgram .sbc)) flags (xs.zip ys)
    xs.length = ys.length ∧ (∀ x ∈ xs, IsPacked x) ∧ (∀ y ∈ ys, IsPacked y) ∧
      decimalNumber xs = 2000 ∧ decimalNumber ys = 199 ∧ flags.carry = true ∧
      decimalNumber (sum.1.map Prod.fst) = 2200 ∧
      decimalNumber (difference.1.map Prod.fst) = 1800 ∧
      sum.2.carry = false ∧ difference.2.carry = false := by
  intro flags xs ys sum difference
  have digits : ∀ x ∈ xs, IsPacked x := by simp [xs, IsPacked]
  have digits' : ∀ y ∈ ys, IsPacked y := by simp [ys, IsPacked]
  obtain ⟨⟨-, -, total, carries⟩, ⟨-, -, rest, borrows⟩, -⟩ :=
    decimal_arithmetic Cpu.postBoot FlatMemory.blank flags xs ys rfl digits digits'
  have minuend : decimalNumber xs = 2000 := by decide
  have subtrahend : decimalNumber ys = 199 := by decide
  have carried : flags.carry = true := by decide
  have places : xs.length = 2 := rfl
  rw [minuend, subtrahend, carried] at total carries rest borrows
  refine ⟨rfl, digits, digits', minuend, subtrahend, carried, total, ?_, ?_, ?_⟩
  · exact Int.ofNat.inj rest
  · exact Bool.eq_false_iff.2 fun set => absurd (carries.1 set) (by decide)
  · exact Bool.eq_false_iff.2 fun set => absurd (borrows.1 set) (by decide)

end DotMatrix
