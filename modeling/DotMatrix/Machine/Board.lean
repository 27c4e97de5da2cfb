import DotMatrix.Cpu.Step
import DotMatrix.Machine.Config
import DotMatrix.Serial
import DotMatrix.Video.Ppu

/-!
# The board

Processor, display and serial port in lock-step: the processor executes an instruction, the serial
port is looked at, and the dots of the instruction's cycles pass. The board is all of the machine but
its memory, so a step of it is a transaction.
-/

namespace DotMatrix

/-- The machine without its memory. -/
structure Board where
  /-- The processor. -/
  cpu : Cpu
  /-- The display. -/
  ppu : Ppu
  /-- The serial port. -/
  serial : SerialLog
  /-- The settings. -/
  config : Config
  /-- The processor cycles that have passed. -/
  cycles : Nat

namespace Board

/-- The board when the boot program hands over. -/
def initial (config : Config) : Board where
  cpu := { Cpu.postBoot with haltGating := config.enforceHalt }
  ppu := .initial
  serial := .empty config.serialEcho
  config := config
  cycles := 0

/-- Back to the state after the boot program. -/
def reset (board : Board) : Board where
  cpu := board.cpu.reset
  ppu := .initial
  serial := board.serial.clear
  config := board.config
  cycles := 0

/-- Whether the processor goes on. -/
def isRunning (board : Board) : Bool := !board.cpu.stopped && !board.cpu.locked

/-- The dots that pass during a number of cycles; the display takes no more than fit in 32 bits. -/
def dots (config : Config) (cycles : Nat) : Nat :=
  min (cycles * config.dotsPerCycle) (UInt32.size - 1)

/-- Lets the processor alone execute an instruction. -/
def stepCpu (board : Board) : Transaction (Nat × Board) := do
  let (cost, cpu) ← board.cpu.step
  return (cost, { board with cpu })

/-- Looks at the serial port alone. -/
def poll (board : Board) : Transaction (Option UInt8 × Board) := do
  let (sent, serial) ← board.serial.poll
  return (sent, { board with serial })

/-- Lets dots pass for the display alone. -/
def tick (dots : Nat) (board : Board) : Transaction (Bool × Board) := do
  let (completed, ppu) ← board.ppu.tick dots
  return (completed, { board with ppu })

/-- Executes one instruction and lets its time pass. Returns its cycles; 0 if the processor is
stopped or locked up. -/
def step (board : Board) : Transaction (Nat × Board) :=
  if board.cpu.stopped then
    return (0, board)
  else do
    let (cost, board) ← board.stepCpu
    if cost = 0 then
      return (0, board)
    else
      let (_, board) ← board.poll
      let (_, board) ← board.tick (dots board.config cost)
      return (cost, { board with cycles := board.cycles + cost })

/-- A step counts the cycles that it returns. -/
theorem cycles_step {μ : Type} [Memory μ] (board : Board) (memory : μ) :
    (board.step.run memory).1.2.cycles = board.cycles + (board.step.run memory).1.1 := by
  unfold step
  split
  · simp
  · simp only [Transaction.run_bind]
    split
    · simp [stepCpu]
    · simp [stepCpu, poll, tick]

end Board

end DotMatrix
