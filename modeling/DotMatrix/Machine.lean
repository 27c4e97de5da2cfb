import DotMatrix.Machine.Board
import DotMatrix.Memory.Map

/-!
# The machine

A board with the memory it runs against and the cartridge in its slot. `perform` runs a transaction
of the board; `observe` does the same and keeps what is reported.
-/

namespace DotMatrix

/-- A whole machine. -/
structure Machine where
  /-- Processor, display and serial port. -/
  board : Board
  /-- The memory. -/
  memory : MemoryMap
  /-- The cartridge image that was last inserted; no bytes if there was none. -/
  cartridge : Cartridge.Image

namespace Machine

/-- The memory with the display status of a frame that starts. -/
def synchronised (memory : MemoryMap) : MemoryMap :=
  ((Bus.setMode Beam.start.mode.bits).run memory).2

/-- The machine when the boot program hands over, with an empty slot. -/
def initial (config : Config) : Machine where
  board := .initial config
  memory := synchronised .initial
  cartridge := #[]

/-- Puts a cartridge into the slot; everything else goes on as it was. -/
def insert (machine : Machine) (image : Cartridge.Image) : Machine :=
  { machine with memory := machine.memory.insert image, cartridge := image }

/-- Switches the machine off and on again. -/
def reset (machine : Machine) : Machine where
  board := machine.board.reset
  memory := synchronised (MemoryMap.initial.insert machine.cartridge)
  cartridge := machine.cartridge

/-- Runs a transaction of the board. -/
def perform {α : Type} (machine : Machine) (operation : Board → Transaction (α × Board)) :
    α × Machine :=
  match machine with
  | ⟨board, memory, cartridge⟩ =>
    let ((result, board), memory) := (operation board).run memory
    (result, ⟨board, memory, cartridge⟩)

/-- Runs a transaction of the board and appends what is reported to `log`. -/
def observe {α : Type} (machine : Machine) (operation : Board → Transaction (α × Board))
    (log : Array Event) : (α × Machine) × Array Event :=
  match machine with
  | ⟨board, memory, cartridge⟩ =>
    let (((result, board), memory), log) := (operation board).observe memory log
    ((result, ⟨board, memory, cartridge⟩), log)

/-- Executes one instruction and lets its time pass. Returns its cycles; 0 if the processor is
stopped or locked up. -/
def step (machine : Machine) : Nat × Machine := machine.perform Board.step

/-- What a number of steps report. -/
def stepLog (machine : Machine) (log : Array Event) : Nat → Array Event
  | 0 => log
  | steps + 1 =>
    let ((_, machine), log) := machine.observe Board.step log
    machine.stepLog log steps

end Machine

end DotMatrix
