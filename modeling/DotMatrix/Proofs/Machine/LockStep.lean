import DotMatrix.Proofs.Machine.Steps
import DotMatrix.Proofs.Video.History

/-!
# Processor and display in lock-step

The cycles of a machine and the dots of its display are counted by different parts, at every step
anew. From the moment the machine is switched on they never drift apart: the counter of cycles is
the sum of what the steps returned, and the display stands where the dots of those cycles take it,
whatever program runs and whatever it writes to the display's registers.

Results:
1. `Ppu.standsAt_clock`: the display's clock decides its position.
2. `lock_step`: both counts, in closed form, after any number of steps.
-/

namespace DotMatrix

/-- The display stands where that many dots take it from the start of its first frame. -/
structure Ppu.StandsAt (ppu : Ppu) (elapsed : Nat) : Prop where
  frames : ppu.frames = elapsed / 70224
  line : ppu.beam.line = elapsed % 70224 / 456
  mode : (ppu.beam.mode, ppu.dots) = modeAt (elapsed % 70224)

theorem Ppu.standsAt_clock (ppu : Ppu) : ppu.StandsAt ppu.clock where
  frames := ppu.frames_eq
  line := (Beam.line_eq ppu.dots_lt).trans (congrArg (· / 456) ppu.place_eq)
  mode := (mode_eq ppu.dots_lt).trans (congrArg modeAt ppu.place_eq)

namespace Machine

/-- A machine that has not made a step since it was built or reset. -/
inductive SwitchedOn : Machine → Prop
  | initial (config : Config) : SwitchedOn (.initial config)
  | reset (machine : Machine) : SwitchedOn machine.reset
  | insert {machine : Machine} (image : Cartridge.Image) :
      SwitchedOn machine → SwitchedOn (machine.insert image)

theorem SwitchedOn.cycles_eq {machine : Machine} (fresh : SwitchedOn machine) :
    machine.board.cycles = 0 := by
  induction fresh with
  | initial config => rfl
  | reset machine => rfl
  | insert image _ ih => rwa [board_insert]

theorem SwitchedOn.ppu_eq {machine : Machine} (fresh : SwitchedOn machine) :
    machine.board.ppu = .initial := by
  induction fresh with
  | initial config => rfl
  | reset machine => rfl
  | insert image _ ih => rwa [board_insert]

/-- Six cycles at most and a rate that keeps their dots below the limit: nothing is cut off. -/
theorem sum_dots_steps (machine : Machine) (count : Nat)
    (slow : 6 * machine.board.config.dotsPerCycle < 2 ^ 32) :
    ((machine.steps count).1.map (Board.dots machine.board.config)).sum =
      (machine.steps count).1.sum * machine.board.config.dotsPerCycle := by
  induction count generalizing machine with
  | zero => exact (Nat.zero_mul _).symm
  | succ count ih =>
    have few := Nat.mul_le_mul_right machine.board.config.dotsPerCycle machine.cost_step_le
    have whole : Board.dots machine.board.config machine.step.1 =
        machine.step.1 * machine.board.config.dotsPerCycle :=
      Nat.min_eq_left (Nat.le_pred_of_lt (Nat.lt_of_le_of_lt few slow))
    have later := ih machine.step.2 (by rwa [config_step])
    rw [config_step] at later
    simp only [steps, List.map_cons, List.sum_cons, whole, later, Nat.add_mul]

/-- Any number of steps after it was switched on, a machine has counted the cycles that the steps
returned, and its display stands where the dots of the steps take it. Where a step's dots always
fit, these are the cycles at the rate of the configuration. -/
theorem lock_step {start : Machine} (fresh : SwitchedOn start) (count : Nat) :
    let run := start.steps count
    let rate := start.board.config.dotsPerCycle
    let dots := (run.1.map fun cost => min (cost * rate) (2 ^ 32 - 1)).sum
    let cycles := run.2.board.cycles
    cycles = run.1.sum ∧
    run.2.board.ppu.StandsAt dots ∧
    (6 * rate < 2 ^ 32 →
      dots = cycles * rate ∧
      run.2.board.ppu.frames = cycles * rate / 70224 ∧
      run.2.board.ppu.beam.line = cycles * rate % 70224 / 456) := by
  intro run rate dots cycles
  have counted : cycles = run.1.sum := by
    have total := start.cycles_steps count
    rwa [fresh.cycles_eq, Nat.zero_add] at total
  have stands : run.2.board.ppu.StandsAt dots := by
    have zero : Ppu.clock .initial = 0 := rfl
    have total : run.2.board.ppu.clock = dots := by
      have moved := start.clock_steps count
      rwa [fresh.ppu_eq, zero, Nat.zero_add] at moved
    exact total ▸ run.2.board.ppu.standsAt_clock
  refine ⟨counted, stands, fun slow => ?_⟩
  have exact_dots : dots = cycles * rate := by
    rw [counted]
    exact start.sum_dots_steps count slow
  exact ⟨exact_dots, exact_dots ▸ stands.frames, exact_dots ▸ stands.line⟩

/-- A cartridge that writes to the display's status without end. -/
theorem lock_step_four_dots :
    let program := #[0xE0, 0x41, 0x18, 0xFC]
    let start := (Machine.initial { dotsPerCycle := 4 }).insert program
    SwitchedOn start ∧ 6 * start.board.config.dotsPerCycle < 2 ^ 32 ∧
      (start.steps 1000000).2.board.ppu.frames =
        (start.steps 1000000).2.board.cycles * 4 / 70224 := by
  intro program start
  have fresh : SwitchedOn start := .insert program (.initial _)
  have rate : start.board.config.dotsPerCycle = 4 :=
    congrArg (fun board => board.config.dotsPerCycle) (board_insert _ program)
  have slow : 6 * start.board.config.dotsPerCycle < 2 ^ 32 := by rw [rate]; decide
  obtain ⟨-, frames, -⟩ := (lock_step fresh 1000000).2.2 slow
  rw [rate] at frames
  exact ⟨fresh, slow, frames⟩

end Machine

end DotMatrix
