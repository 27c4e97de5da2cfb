import DotMatrix.Proofs.Machine.Steps

/-!
# Running within a budget

A run that is asked for frames makes a step after the other until it has them, until the cycles it
was given are spent, or until the processor is dead. It always ends, because a step that does not
kill the processor takes at least one cycle of the budget; and because a step takes at most six, the
last one overdraws the budget by five at most.

Results:
1. `runFor_induction`: what holds of the four ways in which a run goes on or ends holds of the run.
2. `steps_runFor`: a run makes no more steps than it was given cycles, and leaves the machine that
   they make.
3. `ended_runFor`: why a run for frames ended, and when.
4. `runFrames_ends`: both, for the run as it is started.
-/

namespace DotMatrix

namespace Goal

variable {target sent : Nat} {machine : Machine}

theorem frames_eq_some_iff {exit : Exit} :
    frames target sent machine = some exit ↔
      target ≤ machine.board.ppu.frames ∧ exit = .frames := by
  simp [frames, eq_comm]

theorem frames_eq_none_iff :
    frames target sent machine = none ↔ machine.board.ppu.frames < target := by
  simp [frames]

end Goal

namespace Machine

variable {goal : Goal} {machine : Machine} {budget steps : Nat}

/-! ## One turn of the loop -/

theorem runFor_spent (goal : Goal) (machine : Machine) (steps : Nat) :
    runFor goal machine 0 steps = ⟨.cycleLimit, machine, steps⟩ := by
  rw [runFor, if_pos rfl]

theorem runFor_dead (given : budget ≠ 0) (free : machine.step.1 = 0) :
    runFor goal machine budget steps =
      ⟨machine.step.2.haltExit, machine.step.2, steps + 1⟩ := by
  rcases stepped : machine.step with ⟨cost, after⟩
  cases cost with
  | zero => rw [runFor, if_neg given, stepped]
  | succ cost =>
    rw [stepped] at free
    cases free

theorem runFor_timed (given : budget ≠ 0) (timed : machine.step.1 ≠ 0) :
    runFor goal machine budget steps =
      match goal machine.board.serial.bytes.size machine.step.2 with
      | some exit => ⟨exit, machine.step.2, steps + 1⟩
      | none => runFor goal machine.step.2 (budget - machine.step.1) (steps + 1) := by
  rcases stepped : machine.step with ⟨cost, after⟩
  cases cost with
  | zero =>
    rw [stepped] at timed
    exact absurd rfl timed
  | succ cost =>
    rewrite [runFor, if_neg given, stepped]
    rfl

/-- What holds of a run without a budget, of one that ends with a step, and of one that goes on if
it holds of the rest, holds of every run. -/
theorem runFor_induction (goal : Goal) (motive : Machine → Nat → Nat → Run → Prop)
    (spent : ∀ machine steps, motive machine 0 steps ⟨.cycleLimit, machine, steps⟩)
    (dead : ∀ machine budget steps, budget ≠ 0 → machine.step.1 = 0 →
      motive machine budget steps ⟨machine.step.2.haltExit, machine.step.2, steps + 1⟩)
    (reached : ∀ machine budget steps exit, budget ≠ 0 → machine.step.1 ≠ 0 →
      goal machine.board.serial.bytes.size machine.step.2 = some exit →
      motive machine budget steps ⟨exit, machine.step.2, steps + 1⟩)
    (pending : ∀ machine budget steps run, budget ≠ 0 → machine.step.1 ≠ 0 →
      goal machine.board.serial.bytes.size machine.step.2 = none →
      motive machine.step.2 (budget - machine.step.1) (steps + 1) run →
      motive machine budget steps run)
    (machine : Machine) (budget steps : Nat) :
    motive machine budget steps (runFor goal machine budget steps) := by
  induction budget using Nat.strongRecOn generalizing machine steps with
  | ind budget ih =>
    by_cases given : budget = 0
    · rw [given, runFor_spent]
      exact spent machine steps
    by_cases free : machine.step.1 = 0
    · rw [runFor_dead given free]
      exact dead machine budget steps given free
    rw [runFor_timed given free]
    split
    · next exit met => exact reached machine budget steps exit given free met
    · next unmet =>
      have less : budget - machine.step.1 < budget := by omega
      exact pending machine budget steps _ given free unmet (ih _ less _ _)

/-! ## How many steps a run makes -/

/-- A run is a number of steps, at most one for each cycle of its budget. -/
theorem steps_runFor (goal : Goal) (machine : Machine) (budget steps : Nat) :
    ∃ made, (runFor goal machine budget steps).steps = steps + made ∧ made ≤ budget ∧
      (runFor goal machine budget steps).machine = (machine.steps made).2 := by
  refine runFor_induction goal
    (fun machine budget steps run => ∃ made, run.steps = steps + made ∧ made ≤ budget ∧
      run.machine = (machine.steps made).2) ?spent ?dead ?reached ?pending machine budget steps
  case spent =>
    intro machine steps
    exact ⟨0, rfl, Nat.le_refl 0, rfl⟩
  case dead =>
    intro machine budget steps given free
    exact ⟨1, rfl, Nat.one_le_iff_ne_zero.2 given, rfl⟩
  case reached =>
    intro machine budget steps exit given timed met
    exact ⟨1, rfl, Nat.one_le_iff_ne_zero.2 given, rfl⟩
  case pending =>
    rintro machine budget steps run given timed unmet ⟨made, counted, few, left⟩
    exact ⟨made + 1, by omega, by omega, left⟩

/-- The same for a run whose steps are counted from its start. -/
theorem steps_runFor_zero (goal : Goal) (machine : Machine) (budget : Nat) :
    let run := runFor goal machine budget 0
    run.steps ≤ budget ∧ run.machine = (machine.steps run.steps).2 := by
  intro run
  obtain ⟨made, counted, few, reached⟩ := steps_runFor goal machine budget 0
  rw [Nat.zero_add] at counted
  rw [← counted] at few reached
  exact ⟨few, reached⟩

/-! ## Why a run for frames ends -/

/-- How a run may end that was to complete frames up to `target` before the cycles reach
`deadline`. -/
inductive Ended (target deadline : Nat) (machine : Machine) : Exit → Prop
  | frames (complete : target ≤ machine.board.ppu.frames)
      (late : machine.board.cycles ≤ deadline + 5) : Ended target deadline machine .frames
  | cycleLimit (missed : machine.board.ppu.frames < target)
      (spent : deadline ≤ machine.board.cycles) (late : machine.board.cycles ≤ deadline + 5) :
      Ended target deadline machine .cycleLimit
  | locked (missed : machine.board.ppu.frames < target) (early : machine.board.cycles < deadline)
      (locked : machine.board.cpu.locked = true) : Ended target deadline machine .locked
  | stopped (missed : machine.board.ppu.frames < target) (early : machine.board.cycles < deadline)
      (stopped : machine.board.cpu.stopped = true) (unlocked : machine.board.cpu.locked = false) :
      Ended target deadline machine .stopped

namespace Ended

variable {target deadline : Nat} {exit : Exit}

theorem exit_eq_frames_iff (ended : Ended target deadline machine exit) :
    exit = .frames ↔ target ≤ machine.board.ppu.frames := by
  cases ended with
  | frames complete late => exact ⟨fun _ => complete, fun _ => rfl⟩
  | cycleLimit missed spent late =>
    exact ⟨nofun, fun complete => absurd complete (Nat.not_le_of_lt missed)⟩
  | locked missed early locked =>
    exact ⟨nofun, fun complete => absurd complete (Nat.not_le_of_lt missed)⟩
  | stopped missed early stopped unlocked =>
    exact ⟨nofun, fun complete => absurd complete (Nat.not_le_of_lt missed)⟩

theorem cycles_le (ended : Ended target deadline machine exit) :
    machine.board.cycles ≤ deadline + 5 := by
  cases ended with
  | frames complete late => exact late
  | cycleLimit missed spent late => exact late
  | locked missed early locked => omega
  | stopped missed early stopped unlocked => omega

end Ended

/-- A step that takes no time ends the run where it was. -/
theorem ended_of_dead {target deadline : Nat} (missed : machine.board.ppu.frames < target)
    (early : machine.board.cycles < deadline) (free : machine.step.1 = 0) :
    Ended target deadline machine.step.2 machine.step.2.haltExit := by
  obtain ⟨kept, dead⟩ := dead_of_cost_eq_zero free
  have missed' : machine.step.2.board.ppu.frames < target := by rwa [kept]
  have early' : machine.step.2.board.cycles < deadline := by rwa [cycles_step, free]
  cases locked : machine.step.2.board.cpu.locked with
  | true =>
    rw [haltExit, if_pos locked]
    exact .locked missed' early' locked
  | false =>
    rw [haltExit, if_neg (by simp [locked])]
    have stopped := dead.resolve_left (by simp [locked])
    exact .stopped missed' early' stopped locked

theorem ended_runFor {target deadline : Nat} (missed : machine.board.ppu.frames < target)
    (begun : machine.board.cycles ≤ deadline + 5) (steps : Nat) :
    let run := runFor (.frames target) machine (deadline - machine.board.cycles) steps
    Ended target deadline run.machine run.exit := by
  -- The budget is what is left until the deadline, at every turn.
  refine runFor_induction (.frames target)
    (fun machine budget _ run => budget = deadline - machine.board.cycles →
      machine.board.ppu.frames < target → machine.board.cycles ≤ deadline + 5 →
      Ended target deadline run.machine run.exit)
    ?spent ?dead ?reached ?pending machine _ steps rfl missed begun
  case spent =>
    intro machine steps none missed late
    have spent : deadline ≤ machine.board.cycles := Nat.le_of_sub_eq_zero none.symm
    exact .cycleLimit missed spent late
  case dead =>
    intro machine budget steps given free left missed late
    exact ended_of_dead missed (by omega) free
  case reached =>
    intro machine budget steps exit given timed met left missed late
    have few := machine.cost_step_le
    have late' : machine.step.2.board.cycles ≤ deadline + 5 := by
      rw [cycles_step]
      omega
    obtain ⟨complete, rfl⟩ := Goal.frames_eq_some_iff.1 met
    exact .frames complete late'
  case pending =>
    intro machine budget steps run given timed unmet ended left missed late
    have few := machine.cost_step_le
    have missed' := Goal.frames_eq_none_iff.1 unmet
    exact ended (by rw [cycles_step]; omega) missed' (by rw [cycles_step]; omega)

/-! ## Running for frames -/

/-- A run is given the cycles that it is asked for, if the counter holds them. -/
theorem budget_eq (machine : Machine) {maxCycles : Nat}
    (room : machine.board.cycles + maxCycles < 2 ^ 64) : machine.budget maxCycles = maxCycles := by
  have limit : counterLimit = 2 ^ 64 - 1 := rfl
  rw [budget, limit, Nat.min_eq_left (by omega), Nat.add_sub_cancel_left]

/-- What a run for frames starts with: nothing to do, or the loop with a budget. -/
theorem runFrames_eq (machine : Machine) (frames maxCycles : Nat)
    (room : machine.board.cycles + maxCycles < 2 ^ 64) :
    let target := min (machine.board.ppu.frames + frames) (2 ^ 64 - 1)
    machine.runFrames frames maxCycles =
      if target ≤ machine.board.ppu.frames then ⟨.frames, machine, 0⟩
      else runFor (.frames target) machine maxCycles 0 := by
  have limit : counterLimit = 2 ^ 64 - 1 := rfl
  simp only [runFrames, machine.budget_eq room, limit, Goal.frames]
  by_cases complete :
      min (machine.board.ppu.frames + frames) (2 ^ 64 - 1) ≤ machine.board.ppu.frames
  · rw [if_pos complete, if_pos complete]
  · rw [if_neg complete, if_neg complete]

/-- A run for frames ends after at most as many steps as it was given cycles. It says that it has
the frames exactly when it has them, and what else it says is true as well; it overdraws the cycles
by five at most. Asked for no frames it does nothing. -/
theorem runFrames_ends (machine : Machine) (frames maxCycles : Nat)
    (room : machine.board.cycles + maxCycles + 5 < 2 ^ 64) :
    let run := machine.runFrames frames maxCycles
    let target := min (machine.board.ppu.frames + frames) (2 ^ 64 - 1)
    let deadline := machine.board.cycles + maxCycles
    run.steps ≤ maxCycles ∧ run.machine = (machine.steps run.steps).2 ∧
    Ended target deadline run.machine run.exit ∧
    (run.exit = .frames ↔ target ≤ run.machine.board.ppu.frames) ∧
    run.machine.board.cycles ≤ deadline + 5 ∧
    (frames = 0 → run = ⟨.frames, machine, 0⟩) := by
  intro run target deadline
  have begun := machine.runFrames_eq frames maxCycles (Nat.lt_of_add_right_lt room)
  by_cases complete : target ≤ machine.board.ppu.frames
  · have idle : run = ⟨.frames, machine, 0⟩ := begun.trans (if_pos complete)
    have early : machine.board.cycles ≤ deadline + 5 := by omega
    rw [idle]
    exact ⟨Nat.zero_le _, rfl, .frames complete early, ⟨fun _ => complete, fun _ => rfl⟩, early,
      fun _ => rfl⟩
  · have missed : machine.board.ppu.frames < target := Nat.lt_of_not_le complete
    have left : maxCycles = deadline - machine.board.cycles := by omega
    have looped : run = runFor (.frames target) machine maxCycles 0 :=
      begun.trans (if_neg complete)
    obtain ⟨few, reached⟩ := steps_runFor_zero (.frames target) machine maxCycles
    rw [← looped] at few reached
    have ended : Ended target deadline run.machine run.exit := by
      rw [looped, left]
      exact ended_runFor missed (by omega) 0
    exact ⟨few, reached, ended, ended.exit_eq_frames_iff, ended.cycles_le, by omega⟩

/-- With no dots for the display no frame is ever completed, and the run ends all the same. -/
theorem runFrames_ends_without_dots :
    let start := Machine.initial { dotsPerCycle := 0 }
    let run := start.runFrames 1 1000
    start.board.cycles + 1000 + 5 < 2 ^ 64 ∧ run.steps ≤ 1000 ∧
      Ended 1 1000 run.machine run.exit ∧ run.machine.board.cycles ≤ 1005 := by
  intro start
  have room : start.board.cycles + 1000 + 5 < 2 ^ 64 := by decide
  have target : min (start.board.ppu.frames + 1) (2 ^ 64 - 1) = 1 := rfl
  have deadline : start.board.cycles + 1000 = 1000 := rfl
  obtain ⟨few, -, ended, -, late, -⟩ := runFrames_ends start 1 1000 room
  rw [target, deadline] at ended
  rw [deadline] at late
  exact ⟨room, few, ended, late⟩

end Machine

end DotMatrix
