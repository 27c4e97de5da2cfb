import DotMatrix.Proofs.Cpu.Footprint
import DotMatrix.Proofs.Machine.Budget
import DotMatrix.Proofs.Machine.SerialOutput

/-!
# Latches that only observers look at

Three things are kept in a machine for whoever looks at it from outside: whether interrupts are
enabled, whether sent bytes are shown to the user and, if halting is not honoured, whether HALT was
executed. Machines that differ in these alone go on side by side. What an instruction does is
decided by the registers and the memory, and the latches after it follow from those before it, so
the difference never gets anywhere else.

Results:
1. `Cpu.execute_congr`: what an instruction does depends on the registers and the memory alone.
2. `Cpu.ActsLike.step`, `ActsLike.step`: processors and machines that act alike do so after a step.
3. `ActsLike.runFor`: a run for a goal that sees no difference ends alike.
4. `latches_never_steer`: all steps and runs; and without halt gating HALT does what NOP does, as
   EI and DI always do, and RETI what RET does.
-/

namespace DotMatrix

open Memory

namespace Cpu

variable {μ : Type} [Memory μ]

/-- Processors that differ at most in the interrupt switch and, unless halting is honoured, in
whether HALT was executed. -/
structure ActsLike (cpu other : Cpu) : Prop where
  registers : cpu.registers = other.registers
  stopped : cpu.stopped = other.stopped
  locked : cpu.locked = other.locked
  haltGating : cpu.haltGating = other.haltGating
  halted : cpu.haltGating = true → cpu.halted = other.halted

/-! ## Instructions -/

/-- The latches have no part in what an instruction costs, and none in what it does to the registers
and to the memory. -/
theorem execute_congr {cpu other : Cpu} (same : cpu.registers = other.registers)
    (instruction : Instruction) (memory : μ) :
    let first := (cpu.execute instruction).run memory
    let second := (other.execute instruction).run memory
    first.1.1 = second.1.1 ∧ first.1.2.registers = second.1.2.registers ∧ first.2 = second.2 := by
  cases instruction with
  | jumpRelative guard | jump guard | call guard | ret guard =>
    by_cases met : Condition.met guard other.registers.f <;>
      simp [execute, continueWith, same, met]
  | _ => simp [execute, continueWith, same]

namespace ActsLike

variable {cpu other : Cpu} {memory : μ} {instruction : Instruction}

theorem execute (like : cpu.ActsLike other) (instruction : Instruction) (memory : μ) :
    let first := (cpu.execute instruction).run memory
    let second := (other.execute instruction).run memory
    first.1.1 = second.1.1 ∧ first.1.2.ActsLike second.1.2 ∧ first.2 = second.2 := by
  intro first second
  obtain ⟨cost, registers, left⟩ := execute_congr like.registers instruction memory
  obtain ⟨-, stopped, halted, haltGating, locked⟩ := cpu.latches_execute instruction memory
  obtain ⟨-, stopped', halted', haltGating', locked'⟩ := other.latches_execute instruction memory
  refine ⟨cost, ⟨registers, ?_, ?_, ?_, fun gated => ?_⟩, left⟩
  · rw [stopped, stopped', like.stopped]
  · rw [locked, locked', like.locked]
  · rw [haltGating, haltGating', like.haltGating]
  · rw [haltGating] at gated
    rw [halted, halted', like.halted gated]

/-! ## Steps -/

theorem waits (like : cpu.ActsLike other) (waits : cpu.Waits memory) : other.Waits memory where
  running := like.locked.symm.trans waits.running
  halted := (like.halted waits.gated).symm.trans waits.halted
  gated := like.haltGating.symm.trans waits.gated
  quiet := waits.quiet

theorem symm (like : cpu.ActsLike other) : other.ActsLike cpu where
  registers := like.registers.symm
  stopped := like.stopped.symm
  locked := like.locked.symm
  haltGating := like.haltGating.symm
  halted gated := (like.halted (like.haltGating.trans gated)).symm

theorem fetches (like : cpu.ActsLike other) (fetches : cpu.Fetches memory instruction) :
    other.Fetches memory instruction where
  running := like.locked.symm.trans fetches.running
  awake waiting := fetches.awake (like.symm.waits waiting)
  opcode := like.registers ▸ fetches.opcode

theorem fetched (like : cpu.ActsLike other) : cpu.fetched.ActsLike other.fetched where
  registers := by simp only [Cpu.fetched, like.registers]
  stopped := like.stopped
  locked := like.locked
  haltGating := like.haltGating
  halted gated := by
    change (cpu.halted && !cpu.haltGating) = (other.halted && !other.haltGating)
    rw [← like.haltGating, like.halted gated]

theorem step (like : cpu.ActsLike other) (memory : μ) :
    let first := cpu.step.run memory
    let second := other.step.run memory
    first.1.1 = second.1.1 ∧ first.1.2.ActsLike second.1.2 ∧ first.2 = second.2 := by
  cases cpu.phase memory with
  | dead locked =>
    rw [run_step_of_locked memory locked, run_step_of_locked memory (like.locked ▸ locked)]
    exact ⟨rfl, like, rfl⟩
  | waiting waits =>
    rw [waits.run_step, (like.waits waits).run_step]
    exact ⟨rfl, like, rfl⟩
  | lockingUp fetches =>
    rw [fetches.run_step_unused, (like.fetches fetches).run_step_unused]
    exact ⟨rfl, { like.fetched with locked := rfl }, rfl⟩
  | executing instruction fetches valid =>
    obtain ⟨cost, after, left⟩ := like.fetched.execute instruction memory
    rw [fetches.run_step valid, (like.fetches fetches).run_step valid]
    exact ⟨congrArg (instruction.cycles + ·) cost, after, left⟩

end ActsLike

/-- Either instruction may stand for the other one: with the same cycles they leave the same memory,
and processors that act alike. -/
def Interchangeable (cpu : Cpu) (instruction other : Instruction) : Prop :=
  ∀ memory : MemoryMap,
    let first := (cpu.execute instruction).run memory
    let second := (cpu.execute other).run memory
    instruction.cycles + first.1.1 = other.cycles + second.1.1 ∧
    first.1.2.ActsLike second.1.2 ∧ first.2 = second.2

theorem interchangeable_halt (cpu : Cpu) (ungated : cpu.haltGating = false) :
    cpu.Interchangeable .halt .nop := fun _ =>
  ⟨rfl, ⟨rfl, rfl, rfl, rfl, fun gated => Bool.noConfusion (ungated.symm.trans gated)⟩, rfl⟩

theorem interchangeable_ei (cpu : Cpu) : cpu.Interchangeable .ei .nop := fun _ =>
  ⟨rfl, ⟨rfl, rfl, rfl, rfl, fun _ => rfl⟩, rfl⟩

theorem interchangeable_di (cpu : Cpu) : cpu.Interchangeable .di .nop := fun _ =>
  ⟨rfl, ⟨rfl, rfl, rfl, rfl, fun _ => rfl⟩, rfl⟩

theorem interchangeable_reti (cpu : Cpu) : cpu.Interchangeable .reti (.ret none) := fun _ =>
  ⟨rfl, ⟨rfl, rfl, rfl, rfl, fun _ => rfl⟩, rfl⟩

end Cpu

/-! ## The serial port -/

/-- Whether sent bytes are shown has no part in what is sent. -/
theorem SerialLog.poll_congr {μ : Type} [Memory μ] {log other : SerialLog}
    (same : log.bytes = other.bytes) (memory : μ) :
    (log.poll.run memory).1.2.bytes = (other.poll.run memory).1.2.bytes ∧
      (log.poll.run memory).2 = (other.poll.run memory).2 := by
  rw [run_poll, run_poll]
  split
  · exact ⟨congrArg (Array.push · _) same, rfl⟩
  · exact ⟨same, rfl⟩

theorem SerialLog.contains_congr {log other : SerialLog} (same : log.bytes = other.bytes)
    (needle : String) : log.contains needle = other.contains needle := by
  rw [contains, contains, characters, characters, same]

namespace Machine

/-! ## Machines -/

/-- Machines that differ at most in the latches for observers. -/
structure ActsLike (machine other : Machine) : Prop where
  cpu : machine.board.cpu.ActsLike other.board.cpu
  ppu : machine.board.ppu = other.board.ppu
  bytes : machine.board.serial.bytes = other.board.serial.bytes
  dotsPerCycle : machine.board.config.dotsPerCycle = other.board.config.dotsPerCycle
  enforceHalt : machine.board.config.enforceHalt = other.board.config.enforceHalt
  cycles : machine.board.cycles = other.board.cycles
  memory : machine.memory = other.memory
  cartridge : machine.cartridge = other.cartridge

namespace ActsLike

variable {machine other : Machine}

/-- What a step makes of the parts is what the parts make of themselves. -/
theorem withParts (like : machine.ActsLike other) {cpu cpu' : Cpu} (cpus : cpu.ActsLike cpu')
    {serial serial' : SerialLog} (bytes : serial.bytes = serial'.bytes) (ppu : Ppu) (cycles : Nat)
    (memory : MemoryMap) :
    (machine.withParts cpu serial ppu cycles memory).ActsLike
      (other.withParts cpu' serial' ppu cycles memory) where
  cpu := cpus
  ppu := rfl
  bytes := bytes
  dotsPerCycle := like.dotsPerCycle
  enforceHalt := like.enforceHalt
  cycles := congrArg (· + cycles) like.cycles
  memory := rfl
  cartridge := like.cartridge

theorem step (like : machine.ActsLike other) :
    machine.step.1 = other.step.1 ∧ machine.step.2.ActsLike other.step.2 := by
  obtain ⟨cost, cpus, executed⟩ : machine.executed.1.1 = other.executed.1.1 ∧
      machine.executed.1.2.ActsLike other.executed.1.2 ∧
      machine.executed.2 = other.executed.2 := by
    rw [Machine.executed, Machine.executed, ← like.memory]
    exact like.cpu.step machine.memory
  cases machine.stepCase with
  | stopped stopped =>
    rw [step_of_stopped stopped, step_of_stopped (like.cpu.stopped ▸ stopped)]
    exact ⟨rfl, like⟩
  | free going free =>
    rw [step_of_free going free, step_of_free (like.cpu.stopped ▸ going) (cost ▸ free), executed,
      like.ppu]
    exact ⟨rfl, like.withParts cpus like.bytes _ _ _⟩
  | timed going timed =>
    obtain ⟨bytes, polled⟩ : machine.polled.1.2.bytes = other.polled.1.2.bytes ∧
        machine.polled.2 = other.polled.2 := by
      rw [Machine.polled, Machine.polled, executed]
      exact SerialLog.poll_congr like.bytes other.executed.2
    have ticked : machine.ticked = other.ticked := by
      rw [Machine.ticked, Machine.ticked, like.ppu, polled, cost, Board.dots, Board.dots,
        like.dotsPerCycle]
    rw [step_of_timed going timed, step_of_timed (like.cpu.stopped ▸ going) (cost ▸ timed), ticked,
      cost]
    exact ⟨rfl, like.withParts cpus bytes _ _ _⟩

theorem steps (like : machine.ActsLike other) (count : Nat) :
    (machine.steps count).1 = (other.steps count).1 ∧
      (machine.steps count).2.ActsLike (other.steps count).2 := by
  induction count generalizing machine other with
  | zero => exact ⟨rfl, like⟩
  | succ count ih =>
    obtain ⟨cost, after⟩ := like.step
    obtain ⟨costs, last⟩ := ih after
    exact ⟨by rw [Machine.steps, Machine.steps, cost, costs], last⟩

/-! ## Runs -/

theorem haltExit_eq (like : machine.ActsLike other) : machine.haltExit = other.haltExit := by
  rw [haltExit, haltExit, like.cpu.locked]

theorem budget_eq (like : machine.ActsLike other) (maxCycles : Nat) :
    machine.budget maxCycles = other.budget maxCycles := by
  rw [budget, budget, like.cycles]

theorem frames_eq (like : machine.ActsLike other) (target sent : Nat) :
    Goal.frames target sent machine = Goal.frames target sent other := by
  rw [Goal.frames, Goal.frames, like.ppu]

theorem banner_eq (like : machine.ActsLike other) (sent : Nat) :
    Goal.banner sent machine = Goal.banner sent other := by
  simp only [Goal.banner, like.bytes, SerialLog.contains_congr like.bytes]

end ActsLike

end Machine

/-- Runs that end for the same reason, after as many steps, with machines that act alike. -/
structure Run.EndsLike (run other : Run) : Prop where
  exit : run.exit = other.exit
  steps : run.steps = other.steps
  machine : run.machine.ActsLike other.machine

namespace Machine

variable {machine other : Machine}

/-- A goal that does not tell machines apart that act alike. -/
def Blind (goal : Goal) : Prop :=
  ∀ sent {machine other : Machine}, machine.ActsLike other → goal sent machine = goal sent other

theorem ActsLike.runFor {goal : Goal} (blind : Blind goal) (like : machine.ActsLike other)
    (budget steps : Nat) :
    (runFor goal machine budget steps).EndsLike (runFor goal other budget steps) := by
  refine runFor_induction goal
    (fun machine budget steps run => ∀ other, machine.ActsLike other →
      run.EndsLike (Machine.runFor goal other budget steps))
    ?spent ?dead ?reached ?pending machine budget steps other like
  case spent =>
    intro machine steps other like
    rw [runFor_spent]
    exact ⟨rfl, rfl, like⟩
  case dead =>
    intro machine budget steps given free other like
    obtain ⟨cost, after⟩ := like.step
    rw [runFor_dead given (cost ▸ free)]
    exact ⟨after.haltExit_eq, rfl, after⟩
  case reached =>
    intro machine budget steps exit given timed met other like
    obtain ⟨cost, after⟩ := like.step
    rw [like.bytes, blind _ after] at met
    rw [runFor_timed given (cost ▸ timed), met]
    exact ⟨rfl, rfl, after⟩
  case pending =>
    intro machine budget steps run given timed unmet later other like
    obtain ⟨cost, after⟩ := like.step
    rw [like.bytes, blind _ after] at unmet
    rw [runFor_timed given (cost ▸ timed), unmet, ← cost]
    exact later other.step.2 after

theorem ActsLike.runFrames (like : machine.ActsLike other) (frames maxCycles : Nat) :
    (machine.runFrames frames maxCycles).EndsLike (other.runFrames frames maxCycles) := by
  simp only [Machine.runFrames, like.ppu, like.frames_eq, like.budget_eq]
  split
  · exact ⟨rfl, rfl, like⟩
  · exact like.runFor (fun sent _ _ alike => alike.frames_eq _ sent) _ 0

theorem ActsLike.runUntilSerial (like : machine.ActsLike other) (maxCycles : Nat) :
    (machine.runUntilSerial maxCycles).EndsLike (other.runUntilSerial maxCycles) := by
  rw [Machine.runUntilSerial, Machine.runUntilSerial, like.budget_eq]
  exact like.runFor (fun sent _ _ alike => alike.banner_eq sent) _ 0

/-- Machines that differ in nothing but the interrupt switch, whether sent bytes are shown and, where
neither honours halting, whether HALT was executed, return the same cycles at every step and differ
in nothing else afterwards; their runs end for the same reason after as many steps. So where halting
is not honoured HALT may stand for NOP but for the mark that it leaves, and everywhere EI and DI may,
and RETI for RET. -/
theorem latches_never_steer (like : machine.ActsLike other) :
    (∀ count, (machine.steps count).1 = (other.steps count).1 ∧
      (machine.steps count).2.ActsLike (other.steps count).2) ∧
    (∀ frames maxCycles,
      (machine.runFrames frames maxCycles).EndsLike (other.runFrames frames maxCycles)) ∧
    (∀ maxCycles,
      (machine.runUntilSerial maxCycles).EndsLike (other.runUntilSerial maxCycles)) ∧
    (∀ cpu : Cpu,
      (cpu.haltGating = false → cpu.Interchangeable .halt .nop) ∧
      (∀ memory : MemoryMap, ((cpu.execute .halt).run memory).1.2.halted = true) ∧
      cpu.Interchangeable .ei .nop ∧ cpu.Interchangeable .di .nop ∧
      cpu.Interchangeable .reti (.ret none)) :=
  ⟨like.steps, like.runFrames, like.runUntilSerial, fun cpu =>
    ⟨cpu.interchangeable_halt, fun _ => rfl, cpu.interchangeable_ei, cpu.interchangeable_di,
      cpu.interchangeable_reti⟩⟩

/-- A program that enables interrupts, halts, and sends a byte without end, on a machine that shows
the bytes and on one that does not and that has been halted before. -/
theorem latches_never_steer_endless :
    let program : Cartridge.Image :=
      .replicate 0x100 0x00 ++ #[0xFB, 0x76, 0x3E, 0x81, 0xE0, 0x02, 0x18, 0xF8]
    let shown := (Machine.initial { serialEcho := true }).insert program
    let fresh := (Machine.initial {}).insert program
    let marked := fresh.withParts { fresh.board.cpu with interruptsEnabled := true, halted := true }
      fresh.board.serial fresh.board.ppu 0 fresh.memory
    shown.ActsLike marked ∧
      (shown.steps 1000000).1 = (marked.steps 1000000).1 ∧
      (shown.runUntilSerial 1000000).exit = (marked.runUntilSerial 1000000).exit := by
  intro program shown fresh marked
  have ungated : shown.board.cpu.haltGating = false := rfl
  have like : shown.ActsLike marked :=
    ⟨⟨rfl, rfl, rfl, rfl, fun gated => Bool.noConfusion (ungated.symm.trans gated)⟩, rfl, rfl, rfl,
      rfl, rfl, rfl, rfl⟩
  obtain ⟨steps, -, result, -⟩ := latches_never_steer like
  exact ⟨like, (steps 1000000).1, (result 1000000).exit⟩

end Machine

end DotMatrix
