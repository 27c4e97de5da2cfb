import Mathlib.Algebra.GroupWithZero.Nat
import DotMatrix.Machine.Run
import DotMatrix.Proofs.Cpu.Cost
import DotMatrix.Proofs.Video.Clock

/-!
# Steps of the machine

A step of the machine does nothing when the processor is stopped; otherwise the processor steps, and
if that took time, the serial port is looked at and the display is given its dots. So time passes
for all parts or for none.

Results:
1. `step_of_stopped`, `step_of_free`, `step_of_timed`: the step in each of the three cases.
2. `cost_step_le`, `cycles_step`, `clock_step`: what a step costs, and what it adds to the counter
   and to the display's clock.
3. `invariant_steps`, `cycles_steps`, `clock_steps`: the same for any number of steps.
-/

namespace DotMatrix.Machine

theorem board_mk (board : Board) (memory : MemoryMap) (cartridge : Cartridge.Image) :
    (Machine.mk board memory cartridge).board = board := rfl

/-- Inserting a cartridge leaves the board alone. -/
theorem board_insert (machine : Machine) (image : Cartridge.Image) :
    (machine.insert image).board = machine.board := by
  rewrite [insert]
  exact board_mk _ _ _

/-! ## One step -/

/-- The processor's part of a step. -/
def executed (machine : Machine) : (Nat × Cpu) × MemoryMap :=
  machine.board.cpu.step.run machine.memory

/-- The serial port's part of a step that takes time. -/
def polled (machine : Machine) : (Option UInt8 × SerialLog) × MemoryMap :=
  machine.board.serial.poll.run machine.executed.2

/-- The display's part of a step that takes time. -/
def ticked (machine : Machine) : (Bool × Ppu) × MemoryMap :=
  (machine.board.ppu.tick (Board.dots machine.board.config machine.executed.1.1)).run
    machine.polled.2

/-- The machine with other states of its parts, some cycles later. -/
def withParts (machine : Machine) (cpu : Cpu) (serial : SerialLog) (ppu : Ppu) (cycles : Nat)
    (memory : MemoryMap) : Machine :=
  ⟨⟨cpu, ppu, serial, machine.board.config, machine.board.cycles + cycles⟩, memory,
    machine.cartridge⟩

section

variable (machine : Machine) (cpu : Cpu) (serial : SerialLog) (ppu : Ppu) (cycles : Nat)
  (memory : MemoryMap)

@[simp] theorem withParts_cpu :
    (machine.withParts cpu serial ppu cycles memory).board.cpu = cpu := rfl

@[simp] theorem withParts_ppu :
    (machine.withParts cpu serial ppu cycles memory).board.ppu = ppu := rfl

@[simp] theorem withParts_serial :
    (machine.withParts cpu serial ppu cycles memory).board.serial = serial := rfl

@[simp] theorem withParts_config :
    (machine.withParts cpu serial ppu cycles memory).board.config = machine.board.config := rfl

@[simp] theorem withParts_memory :
    (machine.withParts cpu serial ppu cycles memory).memory = memory := rfl

@[simp] theorem withParts_cartridge :
    (machine.withParts cpu serial ppu cycles memory).cartridge = machine.cartridge := rfl

end

theorem withParts_withParts (machine : Machine) (cpu cpu' : Cpu) (serial serial' : SerialLog)
    (ppu ppu' : Ppu) (cycles cycles' : Nat) (memory memory' : MemoryMap) :
    (machine.withParts cpu serial ppu cycles memory).withParts cpu' serial' ppu' cycles' memory' =
      machine.withParts cpu' serial' ppu' (cycles + cycles') memory' := by
  simp only [withParts, Nat.add_assoc]

variable {machine : Machine}

theorem step_eq (machine : Machine) :
    let after := machine.board.step.run machine.memory
    machine.step = (after.1.1, ⟨after.1.2, after.2, machine.cartridge⟩) := rfl

theorem step_of_stopped (stopped : machine.board.cpu.stopped = true) :
    machine.step = (0, machine) := by
  rw [step_eq, Board.step, if_pos stopped, Transaction.run_pure]

theorem step_of_free (going : machine.board.cpu.stopped = false)
    (free : machine.executed.1.1 = 0) :
    machine.step = (0, machine.withParts machine.executed.1.2 machine.board.serial
      machine.board.ppu 0 machine.executed.2) := by
  rw [executed] at free
  simp [step_eq, Board.step, Board.stepCpu, executed, withParts, going, free]

theorem step_of_timed (going : machine.board.cpu.stopped = false)
    (timed : machine.executed.1.1 ≠ 0) :
    machine.step = (machine.executed.1.1, machine.withParts machine.executed.1.2
      machine.polled.1.2 machine.ticked.1.2 machine.executed.1.1 machine.ticked.2) := by
  -- The parts are taken apart first: comparing pairs as they are would run the display.
  rcases cpuPart : machine.executed with ⟨⟨cost, cpu⟩, afterCpu⟩
  rcases serialPart : machine.polled with ⟨⟨sent, serial⟩, afterSerial⟩
  rcases displayPart : machine.ticked with ⟨⟨completed, ppu⟩, afterDisplay⟩
  rw [cpuPart] at timed
  rw [ticked, serialPart, cpuPart] at displayPart
  rw [polled, cpuPart] at serialPart
  rw [executed] at cpuPart
  simp [step_eq, Board.step, Board.stepCpu, Board.poll, Board.tick, withParts, cpuPart, serialPart,
    displayPart, going, timed]

/-- The three cases of a step. -/
inductive Case (machine : Machine) : Prop
  | stopped (stopped : machine.board.cpu.stopped = true)
  | free (going : machine.board.cpu.stopped = false) (free : machine.executed.1.1 = 0)
  | timed (going : machine.board.cpu.stopped = false) (timed : machine.executed.1.1 ≠ 0)

theorem stepCase (machine : Machine) : Case machine := by
  cases going : machine.board.cpu.stopped with
  | true => exact .stopped going
  | false =>
    by_cases free : machine.executed.1.1 = 0
    · exact .free going free
    · exact .timed going free

theorem cost_step_le (machine : Machine) : machine.step.1 ≤ 6 := by
  cases machine.stepCase with
  | stopped stopped =>
    rw [step_of_stopped stopped]
    exact Nat.zero_le 6
  | free going free =>
    rw [step_of_free going free]
    exact Nat.zero_le 6
  | timed going timed =>
    rw [step_of_timed going timed]
    exact Cpu.cost_step_le _ _

theorem cycles_step (machine : Machine) :
    machine.step.2.board.cycles = machine.board.cycles + machine.step.1 :=
  Board.cycles_step machine.board machine.memory

theorem config_step (machine : Machine) :
    machine.step.2.board.config = machine.board.config := by
  cases machine.stepCase with
  | stopped stopped => rw [step_of_stopped stopped]
  | free going free => rw [step_of_free going free, withParts_config]
  | timed going timed => rw [step_of_timed going timed, withParts_config]

/-- The display gets the dots of the cycles that the step returns, whatever the step was. -/
theorem clock_step (machine : Machine) :
    machine.step.2.board.ppu.clock =
      machine.board.ppu.clock + Board.dots machine.board.config machine.step.1 := by
  have none : Board.dots machine.board.config 0 = 0 := by
    rw [Board.dots, Nat.zero_mul, Nat.zero_min]
  cases machine.stepCase with
  | stopped stopped => rw [step_of_stopped stopped, none, Nat.add_zero]
  | free going free => rw [step_of_free going free, withParts_ppu, none, Nat.add_zero]
  | timed going timed => rw [step_of_timed going timed, withParts_ppu, ticked, Ppu.clock_tick]

/-- Unless the processor is stopped, a step returns the cycles of the processor's part. -/
theorem cost_step (going : machine.board.cpu.stopped = false) :
    machine.step.1 = machine.executed.1.1 := by
  by_cases free : machine.executed.1.1 = 0
  · rw [step_of_free going free, free]
  · rw [step_of_timed going free]

/-- The other parts do not touch the processor. -/
theorem cpu_step (going : machine.board.cpu.stopped = false) :
    machine.step.2.board.cpu = machine.executed.1.2 := by
  by_cases free : machine.executed.1.1 = 0
  · rw [step_of_free going free, withParts_cpu]
  · rw [step_of_timed going free, withParts_cpu]

/-- A step that takes no time leaves the display alone, and the processor is locked up or was
stopped. -/
theorem dead_of_cost_eq_zero (free : machine.step.1 = 0) :
    machine.step.2.board.ppu = machine.board.ppu ∧
      (machine.step.2.board.cpu.locked = true ∨ machine.step.2.board.cpu.stopped = true) := by
  cases machine.stepCase with
  | stopped stopped =>
    rw [step_of_stopped stopped]
    exact ⟨rfl, .inr stopped⟩
  | free going free =>
    rw [step_of_free going free, withParts_ppu, withParts_cpu]
    exact ⟨rfl, .inl (Cpu.locked_of_cost_eq_zero free)⟩
  | timed going timed =>
    rw [step_of_timed going timed] at free
    exact absurd free timed

/-! ## Any number of steps -/

/-- A number of steps, with the cycles that each of them took. -/
def steps (machine : Machine) : Nat → List Nat × Machine
  | 0 => ([], machine)
  | count + 1 =>
    let first := machine.step
    let others := first.2.steps count
    (first.1 :: others.1, others.2)

theorem invariant_steps (invariant : Machine → Prop)
    (step : ∀ machine, invariant machine → invariant machine.step.2) {machine : Machine}
    (start : invariant machine) (count : Nat) : invariant (machine.steps count).2 := by
  induction count generalizing machine with
  | zero => exact start
  | succ count ih => exact ih (step machine start)

theorem cycles_steps (machine : Machine) (count : Nat) :
    (machine.steps count).2.board.cycles =
      machine.board.cycles + (machine.steps count).1.sum := by
  induction count generalizing machine with
  | zero => rfl
  | succ count ih => simp only [steps, ih, cycles_step, List.sum_cons, Nat.add_assoc]

theorem clock_steps (machine : Machine) (count : Nat) :
    (machine.steps count).2.board.ppu.clock = machine.board.ppu.clock +
      ((machine.steps count).1.map (Board.dots machine.board.config)).sum := by
  induction count generalizing machine with
  | zero => exact (Nat.add_zero _).symm
  | succ count ih =>
    simp only [steps, ih, clock_step, config_step, List.map_cons, List.sum_cons, Nat.add_assoc]

end DotMatrix.Machine
