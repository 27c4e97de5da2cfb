import DotMatrix.Proofs.Machine.Budget
import DotMatrix.Proofs.Memory.Writes

/-!
# Histories of a machine

What is done to a machine from the outside, in order: a cartridge is inserted, the machine is
switched off and on again, it steps or runs, its parts work one by one, bytes are written to its
memory. A run is a number of steps, so what a step keeps is kept by a run.

Results:
1. `act_stepCpu`, `act_poll`, `act_tick`: what a part that works alone leaves.
2. `invariant_runFrames`, `invariant_runUntilSerial`: what a step keeps is kept by a run.
3. `invariant_replay`: what each action of a history keeps is kept by the history.
-/

namespace DotMatrix.Machine

/-- Something that is done to a machine. -/
inductive Action where
  /-- A cartridge is put into the slot. -/
  | insert (image : Cartridge.Image)
  /-- The machine is switched off and on again. -/
  | reset
  | step
  | runFrames (frames maxCycles : Nat)
  | runUntilSerial (maxCycles : Nat)
  /-- The processor alone executes an instruction. -/
  | stepCpu
  /-- The serial port alone is looked at. -/
  | poll
  /-- Dots pass for the display alone. -/
  | tick (dots : Nat)
  /-- Bytes are written to the memory. -/
  | write (write : MemoryMap.Write)
deriving DecidableEq

/-- The cartridge that an action inserts, if it does. -/
def Action.image? : Action → Option Cartridge.Image
  | .insert image => some image
  | _ => none

/-- The machine after bytes were written to its memory from outside. -/
def written (machine : Machine) (write : MemoryMap.Write) : Machine :=
  { machine with memory := (write.transaction.run machine.memory).2 }

theorem board_written (machine : Machine) (write : MemoryMap.Write) :
    (machine.written write).board = machine.board := rfl

theorem cartridge_written (machine : Machine) (write : MemoryMap.Write) :
    (machine.written write).cartridge = machine.cartridge := rfl

/-- The machine after an action, apart from what the action returned. -/
def act (machine : Machine) : Action → Machine
  | .insert image => machine.insert image
  | .reset => machine.reset
  | .step => machine.step.2
  | .runFrames frames maxCycles => (machine.runFrames frames maxCycles).machine
  | .runUntilSerial maxCycles => (machine.runUntilSerial maxCycles).machine
  | .stepCpu => (machine.perform Board.stepCpu).2
  | .poll => (machine.perform Board.poll).2
  | .tick dots => (machine.perform (Board.tick dots)).2
  | .write write => machine.written write

/-- The machine after a history. -/
def replay (actions : List Action) (machine : Machine) : Machine := actions.foldl act machine

theorem replay_cons (action : Action) (actions : List Action) (machine : Machine) :
    replay (action :: actions) machine = replay actions (machine.act action) := rfl

/-! ## The parts alone

What a part returns is taken apart before it is put back into the board: comparing the two boards as
they are would run the part.
-/

theorem perform_of_run {α : Type} {operation : Board → Transaction (α × Board)} {machine : Machine}
    {result : α} {board : Board} {memory : MemoryMap}
    (run : (operation machine.board).run machine.memory = ((result, board), memory)) :
    machine.perform operation = (result, ⟨board, memory, machine.cartridge⟩) := by
  simp only [perform, run]

theorem act_stepCpu (machine : Machine) :
    machine.act .stepCpu = machine.withParts (machine.board.cpu.step.run machine.memory).1.2
      machine.board.serial machine.board.ppu 0 (machine.board.cpu.step.run machine.memory).2 := by
  rcases part : machine.board.cpu.step.run machine.memory with ⟨⟨cost, cpu⟩, memory⟩
  have run : machine.board.stepCpu.run machine.memory =
      ((cost, { machine.board with cpu }), memory) := by
    rw [Board.stepCpu, Transaction.run_bind, part, Transaction.run_pure]
  rw [act, perform_of_run run]
  rfl

theorem act_poll (machine : Machine) :
    machine.act .poll = machine.withParts machine.board.cpu
      (machine.board.serial.poll.run machine.memory).1.2 machine.board.ppu 0
      (machine.board.serial.poll.run machine.memory).2 := by
  rcases part : machine.board.serial.poll.run machine.memory with ⟨⟨sent, serial⟩, memory⟩
  have run : machine.board.poll.run machine.memory =
      ((sent, { machine.board with serial }), memory) := by
    rw [Board.poll, Transaction.run_bind, part, Transaction.run_pure]
  rw [act, perform_of_run run]
  rfl

theorem act_tick (machine : Machine) (dots : Nat) :
    machine.act (.tick dots) = machine.withParts machine.board.cpu machine.board.serial
      ((machine.board.ppu.tick dots).run machine.memory).1.2 0
      ((machine.board.ppu.tick dots).run machine.memory).2 := by
  rcases part : (machine.board.ppu.tick dots).run machine.memory with ⟨⟨completed, ppu⟩, memory⟩
  have run : (machine.board.tick dots).run machine.memory =
      ((completed, { machine.board with ppu }), memory) := by
    rw [Board.tick, Transaction.run_bind, part, Transaction.run_pure]
  rw [act, perform_of_run run]
  rfl

/-! ## What is kept -/

variable {invariant : Machine → Prop}

theorem invariant_runFrames (step : ∀ machine, invariant machine → invariant machine.step.2)
    {machine : Machine} (start : invariant machine) (frames maxCycles : Nat) :
    invariant (machine.runFrames frames maxCycles).machine := by
  simp only [runFrames]
  split
  · exact start
  · rw [(steps_runFor_zero _ machine _).2]
    exact invariant_steps invariant step start _

theorem invariant_runUntilSerial (step : ∀ machine, invariant machine → invariant machine.step.2)
    {machine : Machine} (start : invariant machine) (maxCycles : Nat) :
    invariant (machine.runUntilSerial maxCycles).machine := by
  unfold runUntilSerial
  rw [(steps_runFor_zero _ machine _).2]
  exact invariant_steps invariant step start _

theorem invariant_replay {actions : List Action}
    (each : ∀ action ∈ actions, ∀ machine, invariant machine → invariant (machine.act action))
    {machine : Machine} (start : invariant machine) : invariant (replay actions machine) := by
  induction actions generalizing machine with
  | nil => exact start
  | cons action later ih =>
    have first := each action List.mem_cons_self machine start
    exact ih (fun action member => each action (List.mem_cons_of_mem _ member)) first

end DotMatrix.Machine
