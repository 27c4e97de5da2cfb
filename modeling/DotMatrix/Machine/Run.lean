import DotMatrix.Machine

/-!
# Running

A machine runs until it has reached a goal, its processor stops or locks up, or a number of cycles
has passed. A goal is looked at after each step. The loop ends because every step that does not end
it takes at least one cycle of those that are left.
-/

namespace DotMatrix

/-- Why a machine stopped running. -/
inductive Exit where
  /-- The frames were completed. -/
  | frames
  /-- The program said that it passed its tests. -/
  | passed
  /-- The program said that it failed its tests. -/
  | failed
  | cycleLimit
  | stopped
  | locked
deriving DecidableEq, Repr

namespace Exit

def name : Exit → String
  | .frames => "Frames"
  | .passed => "Passed"
  | .failed => "Failed"
  | .cycleLimit => "CycleLimit"
  | .stopped => "Stopped"
  | .locked => "Locked"

end Exit

/-- How a run ended. -/
structure Run where
  exit : Exit
  machine : Machine
  /-- How many steps were tried. -/
  steps : Nat

/-- What a machine runs for: an exit if the machine after a step, or what it did in the step, calls
for one. The number is that of the bytes sent before the step. -/
abbrev Goal := Nat → Machine → Option Exit

namespace Goal

/-- So many frames have been completed. -/
def frames (target : Nat) : Goal := fun _ machine =>
  if target ≤ machine.board.ppu.frames then some .frames else none

/-- The program has told its result. What it sent is only searched when it has grown. -/
def banner : Goal := fun sent machine =>
  let serial := machine.board.serial
  if serial.bytes.size = sent then none
  else if serial.contains "Passed" then some .passed
  else if serial.contains "Failed" then some .failed
  else none

end Goal

namespace Machine

/-- The greatest number that the machine's counters hold. -/
def counterLimit : Nat := UInt64.size - 1

/-- Why a machine that does not go on has ended its run. -/
def haltExit (machine : Machine) : Exit := if machine.board.cpu.locked then .locked else .stopped

/-- Runs until a goal is reached, for so many cycles. -/
def runFor (goal : Goal) (machine : Machine) (budget steps : Nat) : Run :=
  if budget = 0 then
    ⟨.cycleLimit, machine, steps⟩
  else
    let sent := machine.board.serial.bytes.size
    match machine.step with
    | (0, machine) => ⟨machine.haltExit, machine, steps + 1⟩
    | (cost + 1, machine) =>
      match goal sent machine with
      | some exit => ⟨exit, machine, steps + 1⟩
      | none => runFor goal machine (budget - (cost + 1)) (steps + 1)
termination_by budget

/-- The cycles that a machine may run when it is given `maxCycles`: its counter has to hold them. -/
def budget (machine : Machine) (maxCycles : Nat) : Nat :=
  min (machine.board.cycles + maxCycles) counterLimit - machine.board.cycles

/-- Runs until so many more frames are completed. -/
def runFrames (machine : Machine) (frames maxCycles : Nat) : Run :=
  let target := min (machine.board.ppu.frames + frames) counterLimit
  match Goal.frames target 0 machine with
  | some exit => ⟨exit, machine, 0⟩
  | none => runFor (.frames target) machine (machine.budget maxCycles) 0

/-- Runs until the program has told its result over the serial port. -/
def runUntilSerial (machine : Machine) (maxCycles : Nat) : Run :=
  runFor .banner machine (machine.budget maxCycles) 0

end Machine

end DotMatrix
