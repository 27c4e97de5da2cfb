import DotMatrix.Proofs.Bounded.Alu
import DotMatrix.Proofs.Cpu.Cost

/-!
# The processor without faults

A step of the processor that looks out for faults: in the sums, differences and shifts of the
arithmetic, in the address of a restart, in the number of a bit, in the tables that are indexed by
an opcode, and in the sum of the cycles, which are counted in 32 bits. Program counter, stack
pointer and pairs of registers wrap around where they count up or down. It has no faults, whatever
the processor and the memory hold.

Results:
1. `outcome_executeChecked`: any instruction.
2. `outcome_stepChecked`: a step.
-/

namespace DotMatrix

open Memory

/-- The cycles of the opcodes, each in a byte. -/
def cycleTable : Vector UInt8 256 := Vector.ofFn fun opcode => .ofNat (opcodeCycles (.ofFin opcode))

/-- The cycles of the bytes behind the prefix, each in a byte. -/
def prefixedCycleTable : Vector UInt8 256 :=
  Vector.ofFn fun opcode => .ofNat (prefixedCycles (.ofFin opcode))

namespace Cpu

/-- Executes a bit instruction. -/
def executeBitChecked (registers : Registers) : BitInstruction → CheckedTransaction Registers
  | .shift shift operand => do
      let value ← operand.read registers
      let (result, flags) ← Alu.shiftedChecked shift registers.f value
      operand.write { registers with f := flags } result
  | .test bit operand => do
      let value ← operand.read registers
      let mask ← Alu.bitMaskChecked bit
      let zero := registers.f.withZero (value &&& mask == 0)
      return { registers with f := (zero.withSubtract false).withHalfCarry true }
  | .reset bit operand => do
      let value ← operand.read registers
      let mask ← Alu.bitMaskChecked bit
      operand.write registers (value &&& ~~~mask)
  | .set bit operand => do
      let value ← operand.read registers
      let mask ← Alu.bitMaskChecked bit
      operand.write registers (value ||| mask)

/-- Executes an instruction whose opcode has been fetched, and returns the cycles on top of the
instruction's own. The instructions that are not taken apart here move bytes and count words up and
down, which wraps around. -/
def executeChecked (cpu : Cpu) (instruction : Instruction) : CheckedTransaction (UInt32 × Cpu) :=
  let registers := cpu.registers
  match instruction with
  | .hlFromSp => do
      let (offset, registers) ← registers.fetch
      let (word, flags) ← Alu.addSignedChecked registers.sp offset
      return (0, { cpu with registers := { registers with f := flags }.setHl word })
  | .addSp => do
      let (offset, registers) ← registers.fetch
      let (word, flags) ← Alu.addSignedChecked registers.sp offset
      return (0, { cpu with registers := { registers with sp := word, f := flags } })
  | .addHl register => do
      let (word, flags) ← Alu.addWordsChecked registers.f registers.hl (register.get registers)
      return (0, { cpu with registers := { registers with f := flags }.setHl word })
  | .arithmetic operation source => do
      let (value, registers) ← source.read registers
      let outcome ← Alu.combineChecked operation registers.f registers.a value
      return (0, { cpu with registers := setResult registers outcome })
  | .rotateA shift => do
      let (result, flags) ← Alu.shiftedChecked shift registers.f registers.a
      return (0, { cpu with registers := setResult registers (result, flags.withZero false) })
  | .restart number => do
      let target ← Checked.mul (UInt16.ofNat number) 8
      let registers ← registers.push registers.pc
      return (0, { cpu with registers := { registers with pc := target } })
  | .extended => do
      let (opcode, registers) ← registers.fetch
      let instruction ← Checked.get BitInstruction.table opcode.toNat
      let registers ← executeBitChecked registers instruction
      let cycles ← Checked.get prefixedCycleTable opcode.toNat
      return (cycles.toUInt32, { cpu with registers })
  | _ => do
      let (extra, cpu) ← cpu.execute instruction
      return (.ofNat extra, cpu)

/-- Fetches and executes one instruction. -/
def advanceChecked (cpu : Cpu) : CheckedTransaction (UInt32 × Cpu) := do
  let pc := cpu.registers.pc
  let (opcode, registers) ← cpu.registers.fetch
  let instruction ← Checked.get Instruction.table opcode.toNat
  Bus.report (.executing pc opcode)
  if instruction = .unused then
    Bus.report (lockUpEvent registers pc opcode)
    return (0, { cpu with registers, locked := true })
  else
    let (extra, cpu) ← executeChecked { cpu with registers } instruction
    let cycles ← Checked.get cycleTable opcode.toNat
    let cost ← Checked.add cycles.toUInt32 extra
    return (cost, cpu)

/-- Executes one instruction, or waits one cycle, and returns the cycles it took. -/
def stepChecked (cpu : Cpu) : CheckedTransaction (UInt32 × Cpu) :=
  if cpu.locked then
    return (0, cpu)
  else if cpu.halted && cpu.haltGating then do
    let pending ← Bus.pendingInterrupts
    if pending.isEmpty then
      return (1, cpu)
    else
      advanceChecked { cpu with halted := false }
  else
    advanceChecked cpu

variable {μ : Type} [Memory μ]

/-- A result of the processor with its cycles in 32 bits. -/
def counted (after : (Nat × Cpu) × μ) : (UInt32 × Cpu) × μ :=
  ((.ofNat after.1.1, after.1.2), after.2)

theorem outcome_executeBitChecked (registers : Registers) (instruction : BitInstruction)
    (memory : μ) :
    (executeBitChecked registers instruction).outcome memory =
      .ok ((executeBit registers instruction).run memory) := by
  cases instruction with
  | shift shift operand => simp [executeBitChecked, executeBit, Alu.shiftedChecked_eq]
  | test bit operand => simp [executeBitChecked, executeBit, Alu.bitMaskChecked_eq, Alu.testBit]
  | reset bit operand => simp [executeBitChecked, executeBit, Alu.bitMaskChecked_eq]
  | set bit operand => simp [executeBitChecked, executeBit, Alu.bitMaskChecked_eq]

theorem toUInt32_ofNat {count : Nat} (small : count < 256) :
    (UInt8.ofNat count).toUInt32 = .ofNat count := by
  apply UInt32.toNat_inj.1
  rw [UInt8.toNat_toUInt32, UInt8.toNat_ofNat', UInt32.toNat_ofNat']
  omega

/-- The tables have something for every opcode. -/
theorem get_table (opcode : UInt8) :
    Checked.get Instruction.table opcode.toNat = .ok (Instruction.lookup opcode) ∧
      Checked.get BitInstruction.table opcode.toNat = .ok (BitInstruction.lookup opcode) ∧
      Checked.get cycleTable opcode.toNat = .ok (.ofNat (Instruction.lookup opcode).cycles) ∧
      Checked.get prefixedCycleTable opcode.toNat =
        .ok (.ofNat (BitInstruction.lookup opcode).cycles) := by
  refine ⟨Checked.get_eq_ok _ opcode.toNat_lt, Checked.get_eq_ok _ opcode.toNat_lt, ?_, ?_⟩
  · rw [Checked.get_eq_ok _ opcode.toNat_lt, Instruction.cycles_lookup]
    simp [cycleTable]
  · rw [Checked.get_eq_ok _ opcode.toNat_lt, BitInstruction.cycles_lookup]
    simp [prefixedCycleTable]

/-- Every instruction is executed without a fault. -/
theorem outcome_executeChecked (cpu : Cpu) (instruction : Instruction) (memory : μ) :
    (cpu.executeChecked instruction).outcome memory =
      .ok (counted ((cpu.execute instruction).run memory)) := by
  cases instruction with
  | hlFromSp | addSp =>
    simp [executeChecked, execute, Alu.addSignedChecked_eq, continueWith, counted]
  | addHl register => simp [executeChecked, execute, Alu.addWordsChecked_eq, continueWith, counted]
  | arithmetic operation source =>
    simp [executeChecked, execute, Alu.combineChecked_eq, continueWith, counted]
  | rotateA shift => simp [executeChecked, execute, Alu.shiftedChecked_eq, continueWith, counted]
  | restart number =>
    have product : Checked.mul (UInt16.ofNat number) 8 = .ok (8 * UInt16.ofNat number) := by
      revert number
      decide
    simp [executeChecked, execute, product, continueWith, counted]
  | extended =>
    have cycles (opcode : UInt8) := toUInt32_ofNat (Nat.lt_of_le_of_lt
      (BitInstruction.lookup opcode).cycles_le (by decide : 3 < 256))
    simp [executeChecked, execute, get_table, outcome_executeBitChecked, counted, cycles]
  | _ => simp [executeChecked, counted]

theorem outcome_advanceChecked (cpu : Cpu) (memory : μ) :
    cpu.advanceChecked.outcome memory = .ok (counted (cpu.advance.run memory)) := by
  have cost (registers : Registers) (instruction : Instruction) :
      let extra := (execute { cpu with registers } instruction).run memory
      Checked.add (UInt8.ofNat instruction.cycles).toUInt32 (.ofNat extra.1.1) =
        .ok (.ofNat (instruction.cycles + extra.1.1)) := by
    intro extra
    have least := instruction.cycles_add_extraCycles_le registers.f (load memory registers.pc)
    have counts : extra.1.1 = _ := extra_execute { cpu with registers } instruction memory
    rw [counts, toUInt32_ofNat (by omega)]
    refine Checked.add_eq_ok ?_
    simp only [FixedWidth.toInt_double, UInt32.toNat_ofNat']
    omega
  by_cases unused : Instruction.lookup (load memory cpu.registers.pc) = .unused
  · simp [advanceChecked, advance, get_table, unused, counted]
  · simp [advanceChecked, advance, get_table, unused, counted, outcome_executeChecked, cost]

/-- A step of the processor has no fault. -/
theorem outcome_stepChecked (cpu : Cpu) (memory : μ) :
    cpu.stepChecked.outcome memory = .ok (counted (cpu.step.run memory)) := by
  unfold stepChecked step
  split
  · rfl
  · split
    · rw [CheckedTransaction.outcome_bind, CheckedTransaction.outcome_lift, Transaction.run_bind,
        Checked.ok_bind]
      split
      · rfl
      · exact outcome_advanceChecked _ _
    · exact outcome_advanceChecked cpu memory

end Cpu

end DotMatrix
