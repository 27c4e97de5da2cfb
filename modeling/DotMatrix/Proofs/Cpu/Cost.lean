import DotMatrix.Memory.Flat
import DotMatrix.Proofs.Cpu.CycleTable
import DotMatrix.Proofs.Cpu.Phases

/-!
# What a step costs

The cycles of a step are counted by tables, apart from its execution. Here they are compared with
what execution does on the bus: each byte that is moved takes a cycle, and besides those there are
the cycles in which an instruction works by itself.

Results:
1. `Fetches.cost_step`, `Fetches.cost_step_eq_table`: the cost depends on the instruction, the flags
   and the byte behind the opcode, and stands in the tables.
2. `cost_step_le`, `locked_of_cost_eq_zero`: a step costs at most six cycles, and nothing only when
   the processor is locked up.
3. `length_accesses_execute`: the cycles of an instruction are the bytes that it moves and its
   internal cycles.
4. `cost_step_eq_accesses`: so are those of a step; STOP, which moves two bytes in its one cycle, is
   the only exception.
-/

namespace DotMatrix

open Memory

/-! ## Costs of instructions -/

theorem Operand.cycles_le (operand : Operand) : operand.cycles ≤ 1 := by
  cases operand <;> simp [cycles]

theorem Source.cycles_le (source : Source) : source.cycles ≤ 1 := by
  cases source with
  | operand place => exact place.cycles_le
  | immediate => exact Nat.le_refl 1

theorem Place.addressCycles_le (place : Place) : place.addressCycles ≤ 2 := by
  cases place <;> simp [addressCycles]

theorem BitInstruction.cycles_le (instruction : BitInstruction) : instruction.cycles ≤ 3 := by
  cases instruction with
  | shift shift operand | reset bit operand | set bit operand =>
    have := operand.cycles_le
    simp only [cycles]
    omega
  | test bit operand => exact Nat.le_trans (Nat.add_le_add_left operand.cycles_le 1) (by decide)

namespace Instruction

/-- The cycles on top of the instruction's own, from the flags before it and the byte behind its
opcode. -/
def extraCycles (flags : Flags) (following : UInt8) (instruction : Instruction) : Nat :=
  match instruction with
  | .jumpRelative guard | .jump guard | .call guard | .ret guard =>
      if Condition.met guard flags then instruction.takenPenalty else 0
  | .extended => (BitInstruction.lookup following).cycles
  | _ => 0

/-- The cycles in which an instruction moves no byte: for arithmetic on words, for making room on
the stack and for changing the program counter. A conditional return takes one to look at the
flags. -/
def internalCycles (flags : Flags) : Instruction → Nat
  | .incWord _ | .decWord _ | .addHl _ | .spFromHl | .hlFromSp => 1
  | .addSp => 2
  | .push _ | .restart _ | .reti | .ret none => 1
  | .jumpRelative guard | .jump guard | .call guard => if Condition.met guard flags then 1 else 0
  | .ret (some condition) => if condition.holds flags then 2 else 1
  | _ => 0

/-- Whether an instruction goes through that may have a guard. -/
def goesThrough (flags : Flags) : Instruction → Bool
  | .jumpRelative guard | .jump guard | .call guard | .ret guard => Condition.met guard flags
  | _ => false

theorem extraCycles_eq (flags : Flags) (following : UInt8) (instruction : Instruction) :
    instruction.extraCycles flags following =
      if instruction = .extended then (BitInstruction.lookup following).cycles
      else if instruction.goesThrough flags then instruction.takenPenalty
      else 0 := by
  cases instruction with
  | jumpRelative guard | jump guard | call guard | ret guard => rfl
  | _ => simp [extraCycles, goesThrough]

theorem cycles_pos {instruction : Instruction} (valid : instruction ≠ .unused) :
    0 < instruction.cycles := by
  cases instruction with
  | unused => exact absurd rfl valid
  | jumpRelative guard | jump guard | call guard | ret guard => cases guard <;> simp [cycles]
  | load | storeA | loadA | inc | dec | arithmetic =>
    simp only [cycles]
    omega
  | _ => simp [cycles]

theorem cycles_add_extraCycles_le (flags : Flags) (following : UInt8) (instruction : Instruction) :
    instruction.cycles + instruction.extraCycles flags following ≤ 6 := by
  cases instruction with
  | load target source =>
    have := target.cycles_le
    have := source.cycles_le
    simp only [cycles, extraCycles]
    omega
  | storeA place | loadA place =>
    have := place.addressCycles_le
    simp only [cycles, extraCycles]
    omega
  | inc operand | dec operand =>
    have := operand.cycles_le
    simp only [cycles, extraCycles]
    omega
  | arithmetic operation source =>
    have := source.cycles_le
    simp only [cycles, extraCycles]
    omega
  | jumpRelative guard | jump guard | call guard | ret guard =>
    cases guard <;> simp only [cycles, extraCycles, takenPenalty] <;> split <;> decide
  | extended =>
    have := (BitInstruction.lookup following).cycles_le
    simp only [cycles, extraCycles]
    omega
  | _ => simp [cycles, extraCycles]

end Instruction

namespace Cpu

variable {μ : Type} [Memory μ]

/-! ## Costs of steps -/

theorem extra_execute (cpu : Cpu) (instruction : Instruction) (memory : μ) :
    ((cpu.execute instruction).run memory).1.1 =
      instruction.extraCycles cpu.registers.f (load memory cpu.registers.pc) := by
  cases instruction with
  | jumpRelative guard | jump guard | call guard | ret guard =>
    by_cases met : Condition.met guard cpu.registers.f <;>
      simp [execute, Instruction.extraCycles, continueWith, met]
  | _ => simp [execute, Instruction.extraCycles, continueWith]

variable {cpu : Cpu} {memory : μ} {instruction : Instruction}

/-- What a step costs that executes an instruction. -/
theorem Fetches.cost_step (fetches : cpu.Fetches memory instruction)
    (valid : instruction ≠ .unused) :
    (cpu.step.run memory).1.1 = instruction.cycles +
      instruction.extraCycles cpu.registers.f (load memory (cpu.registers.pc + 1)) := by
  rw [fetches.run_step valid, extra_execute]
  rfl

/-- The same by the tables. -/
theorem Fetches.cost_step_eq_table (fetches : cpu.Fetches memory instruction)
    (valid : instruction ≠ .unused) :
    let opcode := load memory cpu.registers.pc
    (cpu.step.run memory).1.1 = opcodeCycles opcode +
      if instruction = .extended then prefixedCycles (load memory (cpu.registers.pc + 1))
      else if instruction.goesThrough cpu.registers.f then takenCycles opcode
      else 0 := by
  intro opcode
  rw [fetches.cost_step valid, Instruction.extraCycles_eq, ← fetches.opcode,
    Instruction.cycles_lookup, Instruction.takenPenalty_lookup, BitInstruction.cycles_lookup]

theorem cost_step_le (cpu : Cpu) (memory : μ) : (cpu.step.run memory).1.1 ≤ 6 := by
  cases cpu.phase memory with
  | dead locked =>
    rw [run_step_of_locked memory locked]
    exact Nat.zero_le 6
  | waiting waits =>
    rw [waits.run_step]
    exact Nat.le_of_ble_eq_true rfl
  | lockingUp fetches =>
    rw [fetches.run_step_unused]
    exact Nat.zero_le 6
  | executing instruction fetches valid =>
    rw [fetches.cost_step valid]
    exact instruction.cycles_add_extraCycles_le _ _

theorem locked_of_cost_eq_zero (free : (cpu.step.run memory).1.1 = 0) :
    (cpu.step.run memory).1.2.locked = true := by
  cases cpu.phase memory with
  | dead locked =>
    rw [run_step_of_locked memory locked]
    exact locked
  | waiting waits =>
    rw [waits.run_step] at free
    exact absurd free Nat.one_ne_zero
  | lockingUp fetches =>
    rw [fetches.run_step_unused]
  | executing instruction fetches valid =>
    rw [fetches.cost_step valid] at free
    exact absurd (Nat.eq_zero_of_add_eq_zero_right free)
      (Nat.ne_of_gt (Instruction.cycles_pos valid))

/-! ## Cycles and bytes -/

theorem length_accesses_executeBit (registers : Registers) (instruction : BitInstruction)
    (memory : μ) :
    1 + ((executeBit registers instruction).accesses memory).length = instruction.cycles := by
  cases instruction with
  | shift shift operand | reset bit operand | set bit operand =>
    simp +arith [executeBit, BitInstruction.cycles]
  | test bit operand => simp [executeBit, BitInstruction.cycles]

/-- An instruction takes a cycle for its opcode, one for each byte it moves and its internal
cycles. -/
theorem length_accesses_execute (cpu : Cpu) (instruction : Instruction) (memory : μ)
    (valid : instruction ≠ .unused) (moves : instruction ≠ .stop) :
    1 + ((cpu.execute instruction).accesses memory).length +
        instruction.internalCycles cpu.registers.f =
      instruction.cycles +
        instruction.extraCycles cpu.registers.f (load memory cpu.registers.pc) := by
  cases instruction with
  | unused => exact absurd rfl valid
  | stop => exact absurd rfl moves
  | jumpRelative guard | jump guard | call guard | ret guard =>
    cases guard with
    | none =>
      simp [execute, Instruction.cycles, Instruction.extraCycles, Instruction.internalCycles,
        Instruction.takenPenalty, Condition.met]
    | some condition =>
      by_cases holds : condition.holds cpu.registers.f <;>
        simp [execute, Instruction.cycles, Instruction.extraCycles, Instruction.internalCycles,
          Instruction.takenPenalty, Condition.met, continueWith, holds]
  | extended =>
    have moved := length_accesses_executeBit
      { cpu.registers with pc := cpu.registers.pc + 1 }
      (BitInstruction.lookup (load memory cpu.registers.pc)) memory
    simpa +arith [execute, Instruction.cycles, Instruction.extraCycles,
      Instruction.internalCycles] using moved
  | _ =>
    simp +arith [execute, Instruction.cycles, Instruction.extraCycles, Instruction.internalCycles,
      continueWith]

/-- From the fetch of the opcode on, the cycles of a step, which are those of the tables, are the
bytes that it moves and the internal cycles of its instruction. Only STOP moves a byte more than it
counts. -/
theorem cost_step_eq_accesses (fetches : cpu.Fetches memory instruction)
    (valid : instruction ≠ .unused) :
    let cost := (cpu.step.run memory).1.1
    let opcode := load memory cpu.registers.pc
    let following := load memory (cpu.registers.pc + 1)
    (cost = opcodeCycles opcode +
      if instruction = .extended then prefixedCycles following
      else if instruction.goesThrough cpu.registers.f then takenCycles opcode
      else 0) ∧
    ∃ moved, cpu.step.accesses memory = cpu.polls ++ moved ∧
      moved.head? = some (.read cpu.registers.pc) ∧
      (instruction ≠ .stop →
        cost = moved.length + instruction.internalCycles cpu.registers.f) ∧
      (instruction = .stop → cost = 1 ∧ moved.length = 2) := by
  intro cost opcode following
  refine ⟨fetches.cost_step_eq_table valid, _, fetches.accesses_step valid, rfl, ?moves, ?stops⟩
  case moves =>
    intro moves
    have counted := length_accesses_execute cpu.fetched instruction memory valid moves
    have total : cost = _ := fetches.cost_step valid
    rw [total, List.length_cons, Nat.add_comm _ 1]
    exact counted.symm
  case stops =>
    rintro rfl
    exact ⟨fetches.cost_step valid, rfl⟩

/-- A processor that an interrupt wakes from HALT, and that then returns from a routine: the two
reads that wake it are not counted, the three of the return are, with two internal cycles. -/
theorem cost_step_woken_return :
    let cpu := { postBoot with halted := true, haltGating := true }
    let memory := store (store (store FlatMemory.blank 0xFF0F 0x01) 0xFFFF 0x01) 0x0100 0xC8
    cpu.Fetches memory (.ret (some .zero)) ∧
      ∃ moved, cpu.step.accesses memory = cpu.polls ++ moved ∧ cpu.polls.length = 2 ∧
        (cpu.step.run memory).1.1 = moved.length + 2 := by
  intro cpu memory
  have fetches : cpu.Fetches memory (.ret (some .zero)) := by
    refine ⟨rfl, fun waits => ?_, ?_⟩
    · have requested : load memory HardwareRegister.interruptRequests = 0x01 := by
        simp [memory, HardwareRegister.interruptRequests, FlatMemory.load_store]
      have enabled : load memory HardwareRegister.interruptEnable = 0x01 := by
        simp [memory, HardwareRegister.interruptEnable, FlatMemory.load_store]
      have quiet := waits.quiet
      rw [requested, enabled] at quiet
      exact absurd quiet (by decide)
    · have opcode : load memory cpu.registers.pc = 0xC8 := by
        simp [memory, cpu, postBoot, Registers.postBoot, FlatMemory.load_store]
      rw [opcode, Instruction.lookup_eq_decode]
      decide
  obtain ⟨-, moved, accesses, -, cost, -⟩ := cost_step_eq_accesses fetches (by decide)
  have internal : Instruction.internalCycles cpu.registers.f (.ret (some .zero)) = 2 := by decide
  exact ⟨fetches, moved, accesses, rfl, internal ▸ cost (by decide)⟩

end Cpu

end DotMatrix
