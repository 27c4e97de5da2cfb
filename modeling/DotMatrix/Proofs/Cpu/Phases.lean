import DotMatrix.Proofs.Cpu.Operands

/-!
# What a step is

A step of the processor is one of four things: nothing, because the processor is locked up; one
cycle of waiting for an interrupt; a lock-up on an opcode without a meaning; or the execution of an
instruction. `Cpu.phase` says that there are no others, and each has one equation for the run of the
step, so that later proofs never open the step itself.

Results:
1. `phase`: every state and memory is in one of the phases.
2. `run_step_of_locked`, `Waits.run_step`, `Fetches.run_step_unused`, `Fetches.run_step`: the step
   in each of them.
3. `Fetches.accesses_step`: the accesses of a step that executes an instruction.
-/

namespace DotMatrix.Cpu

open Memory

variable {μ : Type} [Memory μ] {cpu : Cpu} {memory : μ} {instruction : Instruction}

/-! ## Phases -/

/-- The processor waits for an interrupt, and none is both requested and enabled. -/
structure Waits (cpu : Cpu) (memory : μ) : Prop where
  running : cpu.locked = false
  halted : cpu.halted = true
  gated : cpu.haltGating = true
  quiet : load memory HardwareRegister.interruptRequests &&&
    load memory HardwareRegister.interruptEnable &&& 0x1F = 0

/-- The processor is neither locked up nor waiting, and `instruction` stands at its program
counter. -/
structure Fetches (cpu : Cpu) (memory : μ) (instruction : Instruction) : Prop where
  running : cpu.locked = false
  awake : ¬ cpu.Waits memory
  opcode : Instruction.lookup (load memory cpu.registers.pc) = instruction

theorem not_waits_of_awake (awake : cpu.halted = false) : ¬ cpu.Waits memory := fun waits =>
  Bool.noConfusion (awake.symm.trans waits.halted)

/-- A processor that is not even halted executes what its next byte stands for. -/
theorem fetches_of_opcode {opcode : UInt8} (running : cpu.locked = false)
    (awake : cpu.halted = false) (stands : load memory cpu.registers.pc = opcode)
    (decoded : Instruction.decode opcode = instruction) : cpu.Fetches memory instruction where
  running := running
  awake := not_waits_of_awake awake
  opcode := by rw [stands, Instruction.lookup_eq_decode, decoded]

/-- The same of one that is awake, with the opcode as a number. -/
theorem fetches_of_toNat {opcode : Nat} (running : cpu.locked = false)
    (awake : ¬ cpu.Waits memory) (stands : (load memory cpu.registers.pc).toNat = opcode)
    (decoded : Instruction.decode (.ofNat opcode) = instruction) : cpu.Fetches memory instruction where
  running := running
  awake := awake
  opcode := by rw [Instruction.lookup_eq_decode, ← decoded, ← stands, UInt8.ofNat_toNat]

/-- What the next step is. -/
inductive Phase (cpu : Cpu) (memory : μ) : Prop
  | dead (locked : cpu.locked = true)
  | waiting (waits : cpu.Waits memory)
  | lockingUp (fetches : cpu.Fetches memory .unused)
  | executing (instruction : Instruction) (fetches : cpu.Fetches memory instruction)
      (valid : instruction ≠ .unused)

theorem phase (cpu : Cpu) (memory : μ) : Phase cpu memory := by
  by_cases locked : cpu.locked
  · exact .dead locked
  have running : cpu.locked = false := (Bool.not_eq_true _).mp locked
  by_cases waits : cpu.Waits memory
  · exact .waiting waits
  by_cases unused : Instruction.lookup (load memory cpu.registers.pc) = .unused
  · exact .lockingUp ⟨running, waits, unused⟩
  · exact .executing _ ⟨running, waits, rfl⟩ unused

/-! ## The step in each phase -/

/-- The processor once an opcode was fetched. A halted processor that honours halting has been woken
by then; one that does not stays halted in name. -/
def fetched (cpu : Cpu) : Cpu :=
  { cpu with
    registers := { cpu.registers with pc := cpu.registers.pc + 1 }
    halted := cpu.halted && !cpu.haltGating }

/-- The reads with which a halted processor looks for an interrupt before it fetches. -/
def polls (cpu : Cpu) : List Access :=
  if cpu.halted && cpu.haltGating then
    [.read HardwareRegister.interruptRequests, .read HardwareRegister.interruptEnable]
  else
    []

@[simp] theorem run_pendingInterrupts (memory : μ) :
    Bus.pendingInterrupts.run memory =
      (.truncate (load memory HardwareRegister.interruptRequests &&&
        load memory HardwareRegister.interruptEnable), memory) := rfl

@[simp] theorem accesses_pendingInterrupts (memory : μ) :
    Bus.pendingInterrupts.accesses memory =
      [.read HardwareRegister.interruptRequests, .read HardwareRegister.interruptEnable] := rfl

theorem run_step_of_locked (memory : μ) (locked : cpu.locked = true) :
    cpu.step.run memory = ((0, cpu), memory) := by
  rw [step, if_pos locked, Transaction.run_pure]

theorem Waits.run_step (waits : cpu.Waits memory) : cpu.step.run memory = ((1, cpu), memory) := by
  have gate : (cpu.halted && cpu.haltGating) = true := by rw [waits.halted, waits.gated]; rfl
  have quiet := waits.quiet
  simp [step, waits.running, gate, BitField.isEmpty, quiet]

/-- A step that fetches is the advance of the processor awake, after the reads that woke it. -/
theorem Fetches.step_eq (fetches : cpu.Fetches memory instruction) :
    let awake := { cpu with halted := cpu.halted && !cpu.haltGating }
    cpu.step.run memory = awake.advance.run memory ∧
      cpu.step.accesses memory = cpu.polls ++ awake.advance.accesses memory := by
  intro awake
  by_cases gate : (cpu.halted && cpu.haltGating) = true
  · have ⟨halted, gated⟩ := (Bool.and_eq_true _ _).mp gate
    have woken : awake = { cpu with halted := false } := by simp only [awake, halted, gated]; rfl
    have pending : ¬ load memory HardwareRegister.interruptRequests &&&
        load memory HardwareRegister.interruptEnable &&& 0x1F = 0 :=
      fun quiet => fetches.awake ⟨fetches.running, halted, gated, quiet⟩
    rw [woken]
    constructor <;> simp [step, polls, fetches.running, gate, BitField.isEmpty, pending]
  · have kept : (cpu.halted && !cpu.haltGating) = cpu.halted := by
      revert gate
      cases cpu.halted <;> cases cpu.haltGating <;> decide
    have same : awake = cpu := by simp only [awake, kept]
    rw [same]
    constructor <;> simp [step, polls, fetches.running, gate]

theorem Fetches.run_step_unused (fetches : cpu.Fetches memory .unused) :
    cpu.step.run memory = ((0, { cpu.fetched with locked := true }), memory) := by
  rw [fetches.step_eq.1]
  simp [advance, fetches.opcode, fetched]

theorem Fetches.run_step (fetches : cpu.Fetches memory instruction)
    (valid : instruction ≠ .unused) :
    let executed := (cpu.fetched.execute instruction).run memory
    cpu.step.run memory = ((instruction.cycles + executed.1.1, executed.1.2), executed.2) := by
  rw [fetches.step_eq.1]
  simp [advance, fetches.opcode, valid, fetched]

/-- What is moved over the bus: the polls, the opcode, then what the instruction moves. -/
theorem Fetches.accesses_step (fetches : cpu.Fetches memory instruction)
    (valid : instruction ≠ .unused) :
    cpu.step.accesses memory =
      cpu.polls ++ .read cpu.registers.pc :: (cpu.fetched.execute instruction).accesses memory := by
  rw [fetches.step_eq.2]
  simp [advance, fetches.opcode, valid, fetched]

end DotMatrix.Cpu
