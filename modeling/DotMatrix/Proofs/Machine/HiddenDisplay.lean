import DotMatrix.Proofs.Bus.Agreement
import DotMatrix.Proofs.Machine.PowerCycle
import DotMatrix.Proofs.Machine.SerialCapture

/-!
# What a program sees of the display

The display writes to three registers, and a program has no other way to learn how fast the display
runs. As long as it reads none of the three, machines whose displays run at different speeds stay
alike in everything but the display and those registers, whatever the program writes there: what
differs is never read, so it decides nothing.

Results:
1. `DifferByDisplay.step`: a step that does not read the registers makes no other difference.
2. `DifferByDisplay.steps`: neither does any number of such steps.
3. `display_unseen`: so the speed of the display makes no difference to such a program.
-/

namespace DotMatrix

open Memory HardwareRegister

/-! ## The parts of a step -/

namespace AgreeOutside

variable {μ : Type} [Memory μ] [PlainMemory μ] {memory other : μ}

/-- The serial port looks at its own registers alone. -/
theorem poll (agree : AgreeOutside IsSignal memory other) (log : SerialLog) :
    (log.poll.run memory).1 = (log.poll.run other).1 ∧
      AgreeOutside IsSignal (log.poll.run memory).2 (log.poll.run other).2 := by
  have control := agree serialControl (by unfold IsSignal; decide)
  have data := agree serialData (by unfold IsSignal; decide)
  rw [SerialLog.run_poll, SerialLog.run_poll, control, data]
  split
  · exact ⟨rfl, agree.store serialControl 0⟩
  · exact ⟨rfl, agree⟩

/-- Displays in different states, and given different times, write the same registers. -/
theorem tick (agree : AgreeOutside IsSignal memory other) (ppu ppu' : Ppu) (dots dots' : Nat) :
    AgreeOutside IsSignal ((ppu.tick dots).run memory).2 ((ppu'.tick dots').run other).2 := by
  intro address visible
  rw [Ppu.load_tick_of_not_signal _ _ _ visible, Ppu.load_tick_of_not_signal _ _ _ visible,
    agree address visible]

end AgreeOutside

namespace Machine

/-- What the processor moves over the bus in the next step: the opcode, the operands, the data, and
before them the interrupts if it is halted and waits for one. -/
def moved (machine : Machine) : List Access :=
  if machine.board.cpu.stopped then [] else machine.board.cpu.step.accesses machine.memory

/-- The machine with a display of another speed. -/
def withRate (machine : Machine) (rate : Nat) : Machine :=
  { machine with
    board := { machine.board with config := { machine.board.config with dotsPerCycle := rate } } }

/-- A new machine with a display of another speed was set up for it. -/
theorem withRate_factoryNew (config : Config) (slot : Option Cartridge.Image) (rate : Nat) :
    (factoryNew config slot).withRate rate =
      factoryNew { config with dotsPerCycle := rate } slot := by
  cases slot <;> rfl

/-! ## Machines with different displays -/

/-- Machines that differ at most in their displays and in the registers that a display writes. -/
structure DifferByDisplay (machine other : Machine) : Prop where
  cpu : machine.board.cpu = other.board.cpu
  serial : machine.board.serial = other.board.serial
  cycles : machine.board.cycles = other.board.cycles
  serialEcho : machine.board.config.serialEcho = other.board.config.serialEcho
  enforceHalt : machine.board.config.enforceHalt = other.board.config.enforceHalt
  cartridge : machine.cartridge = other.cartridge
  memory : AgreeOutside IsSignal machine.memory other.memory

variable {machine other : Machine}

theorem differByDisplay_withRate (machine : Machine) (rate : Nat) :
    machine.DifferByDisplay (machine.withRate rate) :=
  ⟨rfl, rfl, rfl, rfl, rfl, rfl, .refl IsSignal machine.memory⟩

namespace DifferByDisplay

theorem withParts (differ : machine.DifferByDisplay other) (cpu : Cpu) (serial : SerialLog)
    (ppu ppu' : Ppu) (cycles : Nat) {memory memory' : MemoryMap}
    (agree : AgreeOutside IsSignal memory memory') :
    (machine.withParts cpu serial ppu cycles memory).DifferByDisplay
      (other.withParts cpu serial ppu' cycles memory') where
  cpu := rfl
  serial := rfl
  cycles := congrArg (· + cycles) differ.cycles
  serialEcho := differ.serialEcho
  enforceHalt := differ.enforceHalt
  cartridge := differ.cartridge
  memory := agree

theorem step (differ : machine.DifferByDisplay other) (unread : Unread IsSignal machine.moved) :
    machine.step.1 = other.step.1 ∧ machine.step.2.DifferByDisplay other.step.2 := by
  by_cases stopped : machine.board.cpu.stopped = true
  · rw [step_of_stopped stopped, step_of_stopped (differ.cpu ▸ stopped)]
    exact ⟨rfl, differ⟩
  have going : machine.board.cpu.stopped = false := Bool.eq_false_iff.2 stopped
  have going' : other.board.cpu.stopped = false := differ.cpu ▸ going
  -- The parts follow each other, and each one meets memories that still agree.
  obtain ⟨executed, afterCpu⟩ : machine.executed.1 = other.executed.1 ∧
      AgreeOutside IsSignal machine.executed.2 other.executed.2 := by
    rw [moved, if_neg stopped] at unread
    rw [Machine.executed, Machine.executed, ← differ.cpu]
    exact differ.memory.run unread
  obtain ⟨polled, afterPoll⟩ : machine.polled.1 = other.polled.1 ∧
      AgreeOutside IsSignal machine.polled.2 other.polled.2 := by
    rw [Machine.polled, Machine.polled, ← differ.serial]
    exact afterCpu.poll _
  by_cases free : machine.executed.1.1 = 0
  · rw [step_of_free going free, step_of_free going' (executed ▸ free), executed, differ.serial]
    exact ⟨rfl, differ.withParts _ _ _ _ _ afterCpu⟩
  · rw [step_of_timed going free, step_of_timed going' (executed ▸ free), executed, polled]
    exact ⟨rfl, differ.withParts _ _ _ _ _ (afterPoll.tick _ _ _ _)⟩

theorem steps (differ : machine.DifferByDisplay other) {count : Nat}
    (unread : ∀ made < count, Unread IsSignal (machine.steps made).2.moved) :
    (machine.steps count).1 = (other.steps count).1 ∧
      (machine.steps count).2.DifferByDisplay (other.steps count).2 := by
  induction count generalizing machine other with
  | zero => exact ⟨rfl, differ⟩
  | succ count ih =>
    obtain ⟨cost, after⟩ := differ.step (unread 0 count.succ_pos)
    have later : ∀ made < count, Unread IsSignal (machine.step.2.steps made).2.moved :=
      fun made few => unread (made + 1) (Nat.succ_lt_succ few)
    obtain ⟨costs, last⟩ := ih after later
    exact ⟨by rw [Machine.steps, Machine.steps, cost, costs], last⟩

end DifferByDisplay

/-! ## A program that does not look -/

/-- A program of calls to its own beginning. Their return addresses fill the whole memory, again and
again, and with it the registers of the display. -/
def pushesForever : Cartridge.Image := .replicate 0x101 0xC7

/-- The machine is at one of the calls. -/
structure Pushes (machine : Machine) : Prop where
  maps : machine.Maps pushesForever
  going : machine.board.cpu.stopped = false
  running : machine.board.cpu.locked = false
  awake : machine.board.cpu.halted = false
  counter : machine.board.cpu.registers.pc = 0x0000 ∨ machine.board.cpu.registers.pc = 0x0100

namespace Pushes

theorem fetches (pushes : machine.Pushes) :
    machine.board.cpu.Fetches machine.memory (.restart 0) := by
  have opcode : load machine.memory machine.board.cpu.registers.pc = 0xC7 := by
    rcases pushes.counter with counter | counter <;> rw [counter]
    · exact (pushes.maps.rom 0x0000 (by decide)).trans (by decide +kernel)
    · exact (pushes.maps.rom 0x0100 (by decide)).trans (by decide +kernel)
  exact Cpu.fetches_of_opcode pushes.running pushes.awake opcode (by decide)

/-- The only read is that of the opcode, in ROM. -/
theorem unread (pushes : machine.Pushes) : Unread IsSignal machine.moved := by
  have moved : machine.moved = .read machine.board.cpu.registers.pc ::
      (machine.board.cpu.fetched.execute (.restart 0)).accesses machine.memory := by
    rw [Machine.moved, if_neg (ne_true_of_eq_false pushes.going),
      pushes.fetches.accesses_step (by decide), Cpu.polls, pushes.awake]
    rfl
  intro address member
  rw [moved] at member
  have opcode : address = machine.board.cpu.registers.pc := by
    simpa [Cpu.execute] using member
  rcases pushes.counter with counter | counter <;> rw [opcode, counter] <;> unfold IsSignal <;>
    decide

theorem step (pushes : machine.Pushes) : machine.step.2.Pushes := by
  have executed : machine.executed = _ := pushes.fetches.run_step (by decide)
  have after : machine.step.2.board.cpu =
      ((machine.board.cpu.fetched.execute (.restart 0)).run machine.memory).1.2 := by
    rw [cpu_step pushes.going, executed]
  have awake : machine.board.cpu.fetched.halted = false := by
    rw [Cpu.fetched, pushes.awake, Bool.false_and]
  refine ⟨pushes.maps.step, ?_, ?_, ?_, ?_⟩ <;> rw [after]
  · exact pushes.going
  · exact pushes.running
  · exact awake
  · exact .inl rfl

end Pushes

/-! ## Displays of other speeds -/

/-- As long as its processor reads none of the registers that the display writes, whether as an
opcode, an operand or data, a machine goes on in the same way with a display of any other speed: the
steps return the same cycles, and after them the machines are equal but for the displays, the setting
of their speed and those three registers, whatever was written there. -/
theorem display_unseen (machine : Machine) (rate count : Nat)
    (unread : ∀ made < count, Unread IsSignal (machine.steps made).2.moved) :
    let other := machine.withRate rate
    (machine.steps count).1 = (other.steps count).1 ∧
      (machine.steps count).2.DifferByDisplay (other.steps count).2 :=
  (machine.differByDisplay_withRate rate).steps unread

/-- Two new machines with the program, the display of the second four times as fast: after a million
calls they still agree. -/
theorem display_unseen_pushes :
    let start := factoryNew {} (some pushesForever)
    let faster := factoryNew { dotsPerCycle := 4 } (some pushesForever)
    (∀ made < 1000000, Unread IsSignal (start.steps made).2.moved) ∧
      (start.steps 1000000).1 = (faster.steps 1000000).1 ∧
      (start.steps 1000000).2.DifferByDisplay (faster.steps 1000000).2 := by
  intro start faster
  have same : start.board = .initial {} := board_insert _ pushesForever
  have first : start.Pushes := by
    have cpu : start.board.cpu = .postBoot := congrArg Board.cpu same
    refine ⟨.insert _ _, ?_, ?_, ?_, ?_⟩ <;> rw [cpu]
    · rfl
    · rfl
    · rfl
    · exact .inr rfl
  have unread : ∀ made < 1000000, Unread IsSignal (start.steps made).2.moved := fun made _ =>
    (invariant_steps Pushes (fun _ => Pushes.step) first made).unread
  have both := display_unseen start 4 1000000 unread
  rw [withRate_factoryNew] at both
  exact ⟨unread, both⟩

end Machine

end DotMatrix
