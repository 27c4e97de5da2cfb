import DotMatrix.Memory.Flat
import DotMatrix.Proofs.Cpu.BitOperations
import DotMatrix.Proofs.Cpu.LongArithmetic

/-!
# Shifting numbers of many bytes

A number of many bytes is shifted byte by byte. On the way up, from the lowest byte, the bit that
leaves one byte enters the next from below; on the way down, from the highest byte, it enters from
above. In between it is in the carry flag. The two shifts and the signed one differ from the
rotations only in what enters the first byte.

Results:
1. `Alu.rotate_up`, `Alu.rotate_down`: one byte, with the carry before and after.
2. `ofDigits_chain_down`: a pass down, for a number of any length.
3. `long_shifts`: the four passes, and the rotation up undone by the one down.
-/

namespace DotMatrix

open Memory

/-! ## Bytes -/

namespace Alu

variable (flags : Flags) (value : UInt8)

/-- Nine bits doubled: the carry comes in below and the top bit goes out. -/
theorem rotate_up :
    let rotated := shifted .rl flags value
    rotated.1.toNat + 256 * rotated.2.carry.toNat =
      value.toNat + value.toNat + flags.carry.toNat := by
  simp only [shifted, Flags.carry_ofConditions]
  revert value
  cases flags.carry <;> exact BitField.forall_byte (by decide +kernel)

/-- Nine bits halved: the carry comes in above and the lowest bit goes out. -/
theorem rotate_down :
    let rotated := shifted .rr flags value
    2 * rotated.1.toNat + rotated.2.carry.toNat = value.toNat + 256 * flags.carry.toNat := by
  simp only [shifted, Flags.carry_ofConditions]
  revert value
  cases flags.carry <;> exact BitField.forall_byte (by decide +kernel)

theorem shifted_sla : shifted .sla flags value = shifted .rl .clear value := by
  have clear : Flags.clear.carry = false := rfl
  simp [shifted, shiftOut, clear]

theorem shifted_srl : shifted .srl flags value = shifted .rr .clear value := by
  have clear : Flags.clear.carry = false := rfl
  simp [shifted, shiftOut, clear]

/-- The top bit that is kept is one that comes in. -/
theorem shifted_sra :
    shifted .sra flags value =
      shifted .rr (.ofConditions false false false (decide (128 ≤ value.toNat))) value := by
  have entering : value &&& 0x80 = if decide (128 ≤ value.toNat) then 0x80 else 0 := by
    revert value
    exact BitField.forall_byte (by decide +kernel)
  simp only [shifted, shiftOut, Flags.carry_ofConditions, ← entering]

end Alu

/-! ## Bytes in their places -/

section

variable {μ : Type} [Memory μ]

/-- What is put in the place of an operand is found there again: always if that is a register, and
if it is the byte at HL, where the memory keeps it. -/
def Operand.Keeps (μ : Type) [Memory μ] (operand : Operand) (registers : Registers) : Prop :=
  operand = .atHl →
    ∀ (memory : μ) (byte : UInt8), load (store memory registers.hl byte) registers.hl = byte

theorem Operand.f_put (operand : Operand) (registers : Registers) (memory : μ) (byte : UInt8) :
    (operand.put registers memory byte).1.f = registers.f := by
  rw [← Operand.run_write]
  exact operand.f_write registers byte memory

namespace Operand.Keeps

variable {operand : Operand} {registers : Registers}

theorem value_put (keeps : operand.Keeps μ registers) (flags : Flags) (memory : μ) (byte : UInt8) :
    let placed := operand.put { registers with f := flags } memory byte
    operand.value placed.1 placed.2 = byte := by
  cases operand with
  | register name => exact (Registers.get_set _ name name byte).trans (if_pos rfl)
  | atHl => exact keeps rfl memory byte

theorem put (keeps : operand.Keeps μ registers) (flags : Flags) (memory : μ) (byte : UInt8) :
    operand.Keeps μ (operand.put { registers with f := flags } memory byte).1 := by
  cases operand with
  | register name => rintro ⟨⟩
  | atHl => exact keeps

end Operand.Keeps

namespace Cpu

/-- A shift works on the byte where it stands. -/
theorem shift_inPlace {operand : Operand} {registers : Registers}
    (keeps : operand.Keeps μ registers) (memory : μ) (shift : Shift) :
    let after := (executeBit registers (.shift shift operand)).run memory
    (operand.value after.1 after.2, after.1.f) =
      Alu.shifted shift registers.f (operand.value registers memory) := by
  have run := run_executeBit_shift memory registers registers.pc operand shift
  dsimp only at run ⊢
  rw [run]
  exact Prod.ext (keeps.value_put _ _ _) (operand.f_put _ _ _)

/-- What a shift makes of the flags and of a byte in the place of an operand: the byte that is found
there afterwards and the flags, on a processor and a memory that may be anything else. -/
def shiftAt (cpu : Cpu) (memory : μ) (operand : Operand) (flags : Flags) (item : Shift × UInt8) :
    UInt8 × Flags :=
  let placed := operand.put { cpu.registers with f := flags } memory item.2
  let after := (executeBit placed.1 (.shift item.1 operand)).run placed.2
  (operand.value after.1 after.2, after.1.f)

theorem shiftAt_eq {cpu : Cpu} {operand : Operand} (keeps : operand.Keeps μ cpu.registers)
    (memory : μ) (flags : Flags) (item : Shift × UInt8) :
    cpu.shiftAt memory operand flags item = Alu.shifted item.1 flags item.2 := by
  have shifted := shift_inPlace (keeps.put flags memory item.2)
    (operand.put { cpu.registers with f := flags } memory item.2).2 item.1
  rwa [keeps.value_put, operand.f_put] at shifted

end Cpu

end

/-! ## Passes -/

/-- The bytes with the shift of each: one for the first, another for all behind it. -/
def shiftPass (first next : Shift) : List UInt8 → List (Shift × UInt8)
  | [] => []
  | byte :: bytes => (first, byte) :: bytes.map (next, ·)

theorem shiftPass_self (shift : Shift) (bytes : List UInt8) :
    shiftPass shift shift bytes = bytes.map (shift, ·) := by
  cases bytes <;> rfl

section

variable {α : Type} {operation : Flags → α → UInt8 × Flags} {digit : α → ℕ} {items : List α}

/-- Digits that are halved from the highest down, the bit that leaves one of them entering the next
from above, make half of the number. -/
theorem ofDigits_chain_down {base : ℕ}
    (halves : ∀ flags, ∀ item ∈ items, let half := operation flags item
      2 * half.1.toNat + half.2.carry.toNat = digit item + base * flags.carry.toNat)
    (flags : Flags) :
    let half := chain operation flags items
    2 * Nat.ofDigits base (half.1.map fun result => result.1.toNat).reverse +
        half.2.carry.toNat =
      Nat.ofDigits base (items.map digit).reverse + base ^ items.length * flags.carry.toNat := by
  induction items generalizing flags with
  | nil => simp [chain]
  | cons item items ih =>
    have here := halves flags item List.mem_cons_self
    have later := ih (fun flags item member => halves flags item (List.mem_cons_of_mem _ member))
      (operation flags item).2
    have scaled := congrArg (base ^ items.length * ·) here
    simp only [Nat.mul_add] at scaled
    simp only [chain, List.map_cons, Nat.ofDigits_reverse_cons, List.length_map, length_chain,
      List.length_cons, Nat.pow_succ, Nat.mul_assoc] at later ⊢
    rw [Nat.mul_left_comm] at scaled
    omega

end

section

variable {μ : Type} [Memory μ]

namespace Cpu

/-- The bytes of a number, the least significant first, shifted from the lowest up: one shift for
the lowest, rotations through the carry for the others. The bytes in the end, in the same order, and
the flags. -/
def passUp (cpu : Cpu) (memory : μ) (operand : Operand) (first : Shift) (flags : Flags)
    (bytes : List UInt8) : List UInt8 × Flags :=
  let results := chain (cpu.shiftAt memory operand) flags (shiftPass first .rl bytes)
  (results.1.map Prod.fst, results.2)

/-- The same from the highest byte down. -/
def passDown (cpu : Cpu) (memory : μ) (operand : Operand) (first : Shift) (flags : Flags)
    (bytes : List UInt8) : List UInt8 × Flags :=
  let results := chain (cpu.shiftAt memory operand) flags (shiftPass first .rr bytes.reverse)
  ((results.1.map Prod.fst).reverse, results.2)

variable {cpu : Cpu} {operand : Operand}

/-- A first shift that is the rotation from other flags makes the pass one of rotations only. -/
theorem chain_shiftPass (keeps : operand.Keeps μ cpu.registers) (memory : μ) {first next : Shift}
    {flags flags' : Flags} {byte : UInt8} (bytes : List UInt8)
    (same : Alu.shifted first flags byte = Alu.shifted next flags' byte) :
    chain (cpu.shiftAt memory operand) flags (shiftPass first next (byte :: bytes)) =
      chain (cpu.shiftAt memory operand) flags' (shiftPass next next (byte :: bytes)) := by
  have head : cpu.shiftAt memory operand flags (first, byte) =
      cpu.shiftAt memory operand flags' (next, byte) := by
    rw [shiftAt_eq keeps, shiftAt_eq keeps, same]
  rw [shiftPass, shiftPass, chain, chain, head]

/-- Rotations from the lowest byte up: the number is doubled. -/
theorem passUp_rl (keeps : operand.Keeps μ cpu.registers) (memory : μ) (flags : Flags)
    (bytes : List UInt8) :
    let rotated := cpu.passUp memory operand .rl flags bytes
    rotated.1.length = bytes.length ∧
      byteNumber rotated.1 + 256 ^ bytes.length * rotated.2.carry.toNat =
        2 * byteNumber bytes + flags.carry.toNat := by
  have doubles (flags : Flags) (item : Shift × UInt8) (member : item ∈ bytes.map (Shift.rl, ·)) :
      let rotated := cpu.shiftAt memory operand flags item
      rotated.1.toNat + 256 * rotated.2.carry.toNat =
        item.2.toNat + item.2.toNat + flags.carry.toNat := by
    obtain ⟨byte, -, rfl⟩ := List.mem_map.1 member
    rw [shiftAt_eq keeps]
    exact Alu.rotate_up flags byte
  have balance := ofDigits_chain_add doubles flags
  simp only [passUp, shiftPass_self, List.length_map, length_chain, true_and]
  simp only [List.map_map, List.length_map, Function.comp_def] at balance
  rw [Nat.two_mul, byteNumber, byteNumber, number, number, List.map_map]
  exact balance

/-- Rotations from the highest byte down: the number is halved. -/
theorem passDown_rr (keeps : operand.Keeps μ cpu.registers) (memory : μ) (flags : Flags)
    (bytes : List UInt8) :
    let rotated := cpu.passDown memory operand .rr flags bytes
    rotated.1.length = bytes.length ∧
      2 * byteNumber rotated.1 + rotated.2.carry.toNat =
        byteNumber bytes + 256 ^ bytes.length * flags.carry.toNat := by
  have halves (flags : Flags) (item : Shift × UInt8)
      (member : item ∈ bytes.reverse.map (Shift.rr, ·)) :
      let rotated := cpu.shiftAt memory operand flags item
      2 * rotated.1.toNat + rotated.2.carry.toNat = item.2.toNat + 256 * flags.carry.toNat := by
    obtain ⟨byte, -, rfl⟩ := List.mem_map.1 member
    rw [shiftAt_eq keeps]
    exact Alu.rotate_down flags byte
  have digits : (bytes.reverse.map UInt8.toNat).reverse = bytes.map UInt8.toNat := by
    rw [List.map_reverse, List.reverse_reverse]
  have balance := ofDigits_chain_down halves flags
  simp only [passDown, shiftPass_self, List.length_map, List.length_reverse, length_chain, true_and]
  simp only [List.map_map, List.length_map, Function.comp_def, List.length_reverse] at balance
  rw [byteNumber, byteNumber, number, number, List.map_reverse, List.map_map, ← digits]
  exact balance

end Cpu

end

/-! ## What is left of the number -/

/-- The top bit of a number of so many bytes says whether it is in the upper half. -/
theorem topBit_iff {places value : ℕ} (some : 0 < places) (below : value < 256 ^ places) :
    value.testBit (8 * places - 1) = decide (256 ^ places ≤ 2 * value) := by
  have limit : 256 ^ places = 2 * 2 ^ (8 * places - 1) := by
    rw [← Nat.pow_succ', show (8 * places - 1).succ = 8 * places by omega, Nat.pow_mul]
  rw [limit] at below ⊢
  rw [Nat.testBit_eq_decide_div_mod_eq, decide_eq_decide]
  have quotient : value / 2 ^ (8 * places - 1) < 2 := Nat.div_lt_of_lt_mul (by omega)
  have upper : 1 ≤ value / 2 ^ (8 * places - 1) ↔ 2 ^ (8 * places - 1) ≤ value := by
    rw [Nat.le_div_iff_mul_le (Nat.two_pow_pos _), Nat.one_mul]
  generalize value / 2 ^ (8 * places - 1) = quotient at *
  omega

/-- A number is in the upper half if its highest byte is. -/
theorem upperHalf_iff (lower : List UInt8) (top : UInt8) :
    256 ^ (lower.length + 1) ≤ 2 * byteNumber (lower ++ [top]) ↔ 128 ≤ top.toNat := by
  have below := byteNumber_lt lower
  have value : byteNumber (lower ++ [top]) =
      byteNumber lower + 256 ^ lower.length * top.toNat := by
    simp [byteNumber, number, Nat.ofDigits_append]
  rw [value, Nat.pow_succ]
  constructor
  · intro upper
    by_contra small
    have most : top.toNat ≤ 127 := by omega
    have most := Nat.mul_le_mul_left (256 ^ lower.length) most
    omega
  · intro large
    have least := Nat.mul_le_mul_left (256 ^ lower.length) large
    omega

/-- Half of a number, and the bit that is left over. -/
theorem half_of_balance {half value : ℕ} {carry : Bool}
    (balance : 2 * half + carry.toNat = value) : half = value / 2 ∧ carry.toNat = value % 2 := by
  have bit := carry.toNat_le
  omega

/-- Half of a number that keeps its sign: the top bit enters again from above. -/
theorem signedHalf_of_balance {half value limit : ℕ} {carry : Bool} (even : 2 ∣ limit)
    (below : half < limit) (below' : value < limit)
    (balance : 2 * half + carry.toNat = value + limit * (decide (limit ≤ 2 * value)).toNat) :
    (half : ℤ).bmod limit = (value : ℤ).bmod limit / 2 ∧ carry.toNat = value % 2 := by
  obtain ⟨middle, rfl⟩ := even
  have bit := carry.toNat_le
  simp only [Int.bmod, Int.emod_eq_of_lt (Int.natCast_nonneg _) (Int.ofNat_lt.2 below),
    Int.emod_eq_of_lt (Int.natCast_nonneg _) (Int.ofNat_lt.2 below')]
  by_cases upper : 2 * middle ≤ 2 * value
  · simp only [upper, decide_true, Bool.toNat_true] at balance
    split <;> split <;> omega
  · simp only [upper, decide_false, Bool.toNat_false] at balance
    split <;> split <;> omega

section

variable {μ : Type} [Memory μ]

namespace Cpu

variable {cpu : Cpu} {operand : Operand} {bytes : List UInt8}

theorem passUp_sla (keeps : operand.Keeps μ cpu.registers) (memory : μ) (flags : Flags)
    (some : bytes ≠ []) :
    cpu.passUp memory operand .sla flags bytes = cpu.passUp memory operand .rl .clear bytes := by
  obtain ⟨lowest, higher, rfl⟩ := List.exists_cons_of_ne_nil some
  rw [passUp, passUp, chain_shiftPass keeps memory higher (Alu.shifted_sla flags lowest)]

theorem passDown_srl (keeps : operand.Keeps μ cpu.registers) (memory : μ) (flags : Flags)
    (some : bytes ≠ []) :
    cpu.passDown memory operand .srl flags bytes =
      cpu.passDown memory operand .rr .clear bytes := by
  obtain ⟨lower, top, rfl⟩ := bytes.eq_nil_or_concat.resolve_left some
  rw [List.concat_eq_append, passDown, passDown, List.reverse_concat,
    chain_shiftPass keeps memory lower.reverse (Alu.shifted_srl flags top)]

theorem passDown_sra (keeps : operand.Keeps μ cpu.registers) (memory : μ) (flags : Flags)
    (some : bytes ≠ []) :
    cpu.passDown memory operand .sra flags bytes =
      cpu.passDown memory operand .rr
        (.ofConditions false false false (decide (256 ^ bytes.length ≤ 2 * byteNumber bytes)))
        bytes := by
  obtain ⟨lower, top, rfl⟩ := bytes.eq_nil_or_concat.resolve_left some
  rw [List.concat_eq_append, passDown, passDown, List.length_append, List.length_singleton,
    decide_eq_decide.2 (upperHalf_iff lower top), List.reverse_concat,
    chain_shiftPass keeps memory lower.reverse (Alu.shifted_sra flags top)]

/-- The rotation down undoes the one up, if it starts with the carry that the other has left. -/
theorem passDown_passUp (keeps : operand.Keeps μ cpu.registers) (memory : μ) {flags other : Flags}
    (carry : other.carry = (cpu.passUp memory operand .rl flags bytes).2.carry) :
    let rotated := cpu.passUp memory operand .rl flags bytes
    let restored := cpu.passDown memory operand .rr other rotated.1
    restored.1 = bytes ∧ restored.2.carry = flags.carry := by
  intro rotated restored
  obtain ⟨length, doubles⟩ := passUp_rl keeps memory flags bytes
  obtain ⟨length', halves⟩ := passDown_rr keeps memory other rotated.1
  have balance : 2 * byteNumber restored.1 + restored.2.carry.toNat =
      2 * byteNumber bytes + flags.carry.toNat := by
    rw [← doubles, ← carry, ← length]
    exact halves
  have bit := flags.carry.toNat_le
  have bit' := restored.2.carry.toNat_le
  have number : byteNumber restored.1 = byteNumber bytes := by omega
  have carried : restored.2.carry.toNat = flags.carry.toNat := by omega
  refine ⟨eq_of_byteNumber_eq (length'.trans length) number, ?_⟩
  rw [Bool.eq_iff_iff, ← Bool.toNat_eq_one, ← Bool.toNat_eq_one, carried]

end Cpu

variable {cpu : Cpu} {operand : Operand} {bytes : List UInt8}

/-- SLA and then RL, SRL and then RR, SRA and then RR: the bytes of a number, the least significant
first, are those of its double, of its half and of its half as a signed number, and the carry in the
end is the bit that did not stay. RR down undoes RL up, if the carry is kept in between. The bytes
may stand in any register or at HL; the rest of the processor, and the memory, do not matter. -/
theorem long_shifts (keeps : operand.Keeps μ cpu.registers) (memory : μ) (flags : Flags)
    (some : bytes ≠ []) :
    let places := bytes.length
    let limit := 256 ^ places
    let value := byteNumber bytes
    let doubled := cpu.passUp memory operand .sla flags bytes
    let halved := cpu.passDown memory operand .srl flags bytes
    let halvedSigned := cpu.passDown memory operand .sra flags bytes
    let rotated := cpu.passUp memory operand .rl flags bytes
    (doubled.1.length = places ∧ byteNumber doubled.1 = 2 * value % limit ∧
      doubled.2.carry = value.testBit (8 * places - 1)) ∧
    (halved.1.length = places ∧ byteNumber halved.1 = value / 2 ∧
      halved.2.carry.toNat = value % 2) ∧
    (halvedSigned.1.length = places ∧
      (byteNumber halvedSigned.1 : ℤ).bmod limit = (value : ℤ).bmod limit / 2 ∧
      halvedSigned.2.carry.toNat = value % 2) ∧
    ∀ other : Flags, other.carry = rotated.2.carry →
      let restored := cpu.passDown memory operand .rr other rotated.1
      restored.1 = bytes ∧ restored.2.carry = flags.carry := by
  intro places limit value doubled halved halvedSigned rotated
  have clear : Flags.clear.carry = false := rfl
  have below : value < limit := byteNumber_lt bytes
  refine ⟨?doubled, ?halved, ?signed, fun other => Cpu.passDown_passUp keeps memory⟩
  case doubled =>
    obtain ⟨length, balance⟩ := Cpu.passUp_rl keeps memory .clear bytes
    rw [← Cpu.passUp_sla keeps memory flags some] at length balance
    rw [clear] at balance
    obtain ⟨result, carry⟩ := sum_of_balance (length ▸ byteNumber_lt doubled.1) balance
    refine ⟨length, result, ?_⟩
    rw [topBit_iff (List.length_pos_iff.2 some) below, Bool.eq_iff_iff, decide_eq_true_eq]
    exact carry
  case halved =>
    obtain ⟨length, balance⟩ := Cpu.passDown_rr keeps memory .clear bytes
    rw [← Cpu.passDown_srl keeps memory flags some] at length balance
    rw [clear, Bool.toNat_false, Nat.mul_zero, Nat.add_zero] at balance
    exact ⟨length, half_of_balance balance⟩
  case signed =>
    obtain ⟨length, balance⟩ := Cpu.passDown_rr keeps memory _ bytes
    rw [← Cpu.passDown_sra keeps memory flags some] at length balance
    rw [Flags.carry_ofConditions] at balance
    have even : 2 ∣ limit := dvd_pow (by decide) (List.length_eq_zero_iff.not.2 some)
    have half := length ▸ byteNumber_lt halvedSigned.1
    exact ⟨length, signedHalf_of_balance even half below balance⟩

end

/-- $8081, its bytes at HL one after the other: the top bit leaves its double, and comes back into
its signed half. -/
theorem long_shifts_at_hl :
    let bytes : List UInt8 := [0x81, 0x80]
    let flags := Cpu.postBoot.registers.f
    let doubled := Cpu.postBoot.passUp FlatMemory.blank .atHl .sla flags bytes
    let halvedSigned := Cpu.postBoot.passDown FlatMemory.blank .atHl .sra flags bytes
    Operand.Keeps FlatMemory .atHl Cpu.postBoot.registers ∧ bytes ≠ [] ∧
      byteNumber bytes = 0x8081 ∧ byteNumber doubled.1 = 0x0102 ∧ doubled.2.carry = true ∧
      (byteNumber halvedSigned.1 : ℤ).bmod 0x10000 = (0x8081 - 0x10000) / 2 ∧
      halvedSigned.2.carry = true := by
  intro bytes flags doubled halvedSigned
  have keeps : Operand.Keeps FlatMemory .atHl Cpu.postBoot.registers := fun _ memory byte =>
    (memory.load_store _ _ byte).trans (if_pos rfl)
  have some : bytes ≠ [] := List.cons_ne_nil _ _
  have value : byteNumber bytes = 0x8081 := by decide
  obtain ⟨⟨-, double, out⟩, -, ⟨-, half, lowest⟩, -⟩ :=
    long_shifts keeps FlatMemory.blank flags some
  have places : bytes.length = 2 := rfl
  rw [value, places] at double out half
  rw [value] at lowest
  exact ⟨keeps, some, value, double.trans (by decide), out.trans (by decide),
    half.trans (by decide), Bool.toNat_eq_one.1 lowest⟩

end DotMatrix
