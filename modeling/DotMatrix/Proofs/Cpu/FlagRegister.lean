import DotMatrix.Proofs.Cpu.Phases

/-!
# The flag register

Only the upper four bits of the flag register have a meaning. A bit field keeps whatever bits it is
given, so that the lower four are zero is a property of the operations: each that makes flags makes
clean ones, from clean ones where it keeps some. Every instruction is made of such operations, so
the flags stay clean however long a program runs.

Results:
1. `BitField.Clean` and its lemmas: which operations on bit fields keep the undefined bits clear.
   `contains_set`, `contains_set_of_apart`: what is found of the bits that have a name; with them,
   what is read of each flag where one was set.
2. `clean_execute`, `clean_step`: no instruction and no step sets an undefined bit.
3. `clean_steps`: nor does any number of steps.
-/

namespace DotMatrix

open Memory

/-! ## Clean fields -/

namespace BitField

variable {defined : UInt8} {field mask : BitField defined}

/-- No bit without a name is set. -/
def Clean (field : BitField defined) : Prop := field.bits &&& ~~~defined = 0

instance : Decidable field.Clean := inferInstanceAs (Decidable (_ = _))

theorem clean_empty : (empty : BitField defined).Clean := UInt8.zero_and

@[simp] theorem clean_truncate (byte : UInt8) : (truncate byte : BitField defined).Clean := by
  rw [Clean, bits_truncate, UInt8.and_assoc, UInt8.and_not_self, UInt8.and_zero]

theorem Clean.defined_of_bit (clean : field.Clean) {i : Nat} (bound : i < 8)
    (set : field.bits.toBitVec[i] = true) : defined.toBitVec[i] = true := by
  have clear := congrArg (·[i]) (UInt8.eq_iff_toBitVec_eq.1 clean)
  simpa [set] using clear

/-- Dropping the undefined bits of a clean field changes nothing. -/
theorem Clean.truncate_bits (clean : field.Clean) : truncate field.bits = field := by
  have whole : field.bits &&& defined = field.bits := by
    apply UInt8.eq_of_toBitVec_eq
    ext i bound
    simpa using clean.defined_of_bit bound
  rw [truncate, whole]

/-- Setting or clearing some bits does nothing to the others. -/
theorem bits_set_and {kept : UInt8} (apart : mask.bits &&& kept = 0) (value : Bool) :
    (field.set mask value).bits &&& kept = field.bits &&& kept := by
  rw [bits_set]
  apply UInt8.eq_of_toBitVec_eq
  ext i bound
  have other := congrArg (·[i]) (UInt8.eq_iff_toBitVec_eq.1 apart)
  simp only [UInt8.toBitVec_and, BitVec.getElem_and, UInt8.toBitVec_zero,
    BitVec.getElem_zero] at other
  cases value with
  | true =>
    simp only [reduceIte, UInt8.toBitVec_and, UInt8.toBitVec_or, BitVec.getElem_and,
      BitVec.getElem_or]
    grind
  | false =>
    simp only [Bool.false_eq_true, reduceIte, UInt8.toBitVec_and, UInt8.toBitVec_not,
      BitVec.getElem_and, BitVec.getElem_not]
    grind

theorem clean_set (named : mask.Clean) (value : Bool) :
    (field.set mask value).Clean ↔ field.Clean := by
  rw [Clean, Clean, bits_set_and named]

/-- A bit that is set or cleared is found that way. -/
theorem contains_set (named : mask.bits ≠ 0) (value : Bool) :
    (field.set mask value).contains mask = value := by
  cases value with
  | true =>
    have absorbed : (field.bits ||| mask.bits) &&& mask.bits = mask.bits := by
      apply UInt8.eq_of_toBitVec_eq
      ext i bound
      simpa using fun set => .inr set
    simp [contains, bits_set, absorbed]
  | false =>
    have cleared : field.bits &&& ~~~mask.bits &&& mask.bits = 0 := by
      rw [UInt8.and_assoc, UInt8.and_comm (~~~mask.bits), UInt8.and_not_self, UInt8.and_zero]
    simp [contains, bits_set, cleared, named.symm]

theorem contains_set_of_apart {other : BitField defined} (apart : mask.bits &&& other.bits = 0)
    (value : Bool) : (field.set mask value).contains other = field.contains other := by
  rw [contains, bits_set_and apart, contains]

end BitField

namespace Flags

variable {flags : Flags} (value : Bool)

/-- The flags are clean if the lower half of their byte is zero. -/
theorem clean_iff : flags.Clean ↔ flags.bits &&& 0x0F = 0 := Iff.rfl

theorem toNat_mod_of_clean (clean : flags.Clean) : flags.bits.toNat % 16 = 0 := by
  have low := congrArg UInt8.toNat (clean_iff.1 clean)
  rw [UInt8.toNat_and] at low
  exact (Nat.and_two_pow_sub_one_eq_mod flags.bits.toNat 4).symm.trans low

@[simp] theorem clean_withZero : (flags.withZero value).Clean ↔ flags.Clean :=
  BitField.clean_set (by decide) value

@[simp] theorem clean_withSubtract : (flags.withSubtract value).Clean ↔ flags.Clean :=
  BitField.clean_set (by decide) value

@[simp] theorem clean_withHalfCarry : (flags.withHalfCarry value).Clean ↔ flags.Clean :=
  BitField.clean_set (by decide) value

@[simp] theorem clean_withCarry : (flags.withCarry value).Clean ↔ flags.Clean :=
  BitField.clean_set (by decide) value

@[simp] theorem clean_ofConditions (zero subtract halfCarry carry : Bool) :
    (ofConditions zero subtract halfCarry carry).Clean := by
  have start : clear.Clean := BitField.clean_empty
  simp [ofConditions, start]

/-! ## Reading a flag where one was set -/

variable (flags)

@[simp] theorem zero_withZero : (flags.withZero value).zero = value :=
  BitField.contains_set (by decide) value

@[simp] theorem zero_withSubtract : (flags.withSubtract value).zero = flags.zero :=
  BitField.contains_set_of_apart (by decide) value

@[simp] theorem zero_withHalfCarry : (flags.withHalfCarry value).zero = flags.zero :=
  BitField.contains_set_of_apart (by decide) value

@[simp] theorem zero_withCarry : (flags.withCarry value).zero = flags.zero :=
  BitField.contains_set_of_apart (by decide) value

@[simp] theorem subtract_withZero : (flags.withZero value).subtract = flags.subtract :=
  BitField.contains_set_of_apart (by decide) value

@[simp] theorem subtract_withSubtract : (flags.withSubtract value).subtract = value :=
  BitField.contains_set (by decide) value

@[simp] theorem subtract_withHalfCarry : (flags.withHalfCarry value).subtract = flags.subtract :=
  BitField.contains_set_of_apart (by decide) value

@[simp] theorem subtract_withCarry : (flags.withCarry value).subtract = flags.subtract :=
  BitField.contains_set_of_apart (by decide) value

@[simp] theorem halfCarry_withZero : (flags.withZero value).halfCarry = flags.halfCarry :=
  BitField.contains_set_of_apart (by decide) value

@[simp] theorem halfCarry_withSubtract : (flags.withSubtract value).halfCarry = flags.halfCarry :=
  BitField.contains_set_of_apart (by decide) value

@[simp] theorem halfCarry_withHalfCarry : (flags.withHalfCarry value).halfCarry = value :=
  BitField.contains_set (by decide) value

@[simp] theorem halfCarry_withCarry : (flags.withCarry value).halfCarry = flags.halfCarry :=
  BitField.contains_set_of_apart (by decide) value

@[simp] theorem carry_withZero : (flags.withZero value).carry = flags.carry :=
  BitField.contains_set_of_apart (by decide) value

@[simp] theorem carry_withSubtract : (flags.withSubtract value).carry = flags.carry :=
  BitField.contains_set_of_apart (by decide) value

@[simp] theorem carry_withHalfCarry : (flags.withHalfCarry value).carry = flags.carry :=
  BitField.contains_set_of_apart (by decide) value

@[simp] theorem carry_withCarry : (flags.withCarry value).carry = value :=
  BitField.contains_set (by decide) value

end Flags

/-! ## Operations -/

namespace Alu

variable {flags : Flags}

@[simp] theorem clean_combine (operation : Arithmetic) (flags : Flags) (a value : UInt8) :
    (combine operation flags a value).2.Clean := by
  cases operation <;> exact Flags.clean_ofConditions _ _ _ _

@[simp] theorem clean_shifted (shift : Shift) (flags : Flags) (value : UInt8) :
    (shifted shift flags value).2.Clean :=
  Flags.clean_ofConditions _ _ _ _

@[simp] theorem clean_addSigned (word : UInt16) (byte : UInt8) : (addSigned word byte).2.Clean :=
  Flags.clean_ofConditions _ _ _ _

@[simp] theorem clean_increment (value : UInt8) :
    (increment flags value).2.Clean ↔ flags.Clean := by
  simp [increment]

@[simp] theorem clean_decrement (value : UInt8) :
    (decrement flags value).2.Clean ↔ flags.Clean := by
  simp [decrement]

@[simp] theorem clean_addWords (word value : UInt16) :
    (addWords flags word value).2.Clean ↔ flags.Clean := by
  simp [addWords]

@[simp] theorem clean_decimalAdjust (a : UInt8) :
    (decimalAdjust flags a).2.Clean ↔ flags.Clean := by
  simp [decimalAdjust]

@[simp] theorem clean_testBit (bit : Fin 8) (value : UInt8) :
    (testBit flags bit value).Clean ↔ flags.Clean := by
  simp [testBit]

end Alu

/-- AF is the only word on the stack that goes into the flags. -/
theorem StackRegister.clean_set {registers : Registers} (clean : registers.f.Clean)
    (register : StackRegister) (word : UInt16) : (register.set registers word).f.Clean := by
  cases register with
  | pair name =>
    rw [set, Registers.f_setPair]
    exact clean
  | af => exact BitField.clean_truncate _

/-! ## Instructions -/

namespace Cpu

variable {μ : Type} [Memory μ] {cpu : Cpu}

theorem clean_executeBit (registers : Registers) (clean : registers.f.Clean)
    (instruction : BitInstruction) (memory : μ) :
    ((executeBit registers instruction).run memory).1.f.Clean := by
  cases instruction <;> simp [executeBit, clean]

theorem clean_execute (cpu : Cpu) (clean : cpu.registers.f.Clean) (instruction : Instruction)
    (memory : μ) : ((cpu.execute instruction).run memory).1.2.registers.f.Clean := by
  cases instruction with
  | jumpRelative guard | jump guard | call guard | ret guard =>
    by_cases met : Condition.met guard cpu.registers.f <;>
      simp [execute, continueWith, met, clean]
  | extended =>
    have kept := clean_executeBit { cpu.registers with pc := cpu.registers.pc + 1 } clean
      (BitInstruction.lookup (load memory cpu.registers.pc)) memory
    simpa [execute] using kept
  | pop register => simp [execute, continueWith, StackRegister.clean_set, clean]
  | _ => simp [execute, continueWith, setResult, clean]

theorem clean_step (clean : cpu.registers.f.Clean) (memory : μ) :
    (cpu.step.run memory).1.2.registers.f.Clean := by
  cases cpu.phase memory with
  | dead locked =>
    rw [run_step_of_locked memory locked]
    exact clean
  | waiting waits =>
    rw [waits.run_step]
    exact clean
  | lockingUp fetches =>
    rw [fetches.run_step_unused]
    exact clean
  | executing instruction fetches valid =>
    rw [fetches.run_step valid]
    exact clean_execute cpu.fetched clean instruction memory

/-- The processor and its memory after a number of steps. -/
def steps (cpu : Cpu) (memory : μ) : Nat → Cpu × μ
  | 0 => (cpu, memory)
  | count + 1 =>
    let after := cpu.step.run memory
    after.1.2.steps after.2 count

theorem clean_steps (clean : cpu.registers.f.Clean) (memory : μ) (count : Nat) :
    (cpu.steps memory count).1.registers.f.Clean := by
  induction count generalizing cpu memory with
  | zero => exact clean
  | succ count ih => exact ih (clean_step clean memory) _

end Cpu

end DotMatrix
