import DotMatrix.Proofs.Machine.Banner

/-!
# Runs that go on where others ended

A run can be cut in two: by a goal that is reached on the way to a later one, or by a budget that is
spent before a greater one. The second run starts from the counters that the first one left, and
computes its goal and its budget anew. Nothing is lost at the cut if the first run ends exactly at
its goal, which takes a display that completes at most one frame in a step, and if what it overdraws
is taken from the second.

Results:
1. `runFor_of_le`: a run with a greater budget goes on from where the smaller one was spent.
2. `runFor_frames_of_le`: a run for a later frame goes on from where the earlier one was complete.
3. `frames_step_le`, `frames_runFor`: a run for frames completes no frame too many.
4. `runs_compose`: both cuts, for the runs as they are started.
-/

namespace DotMatrix

/-- A run and the one that went on from the machine it left. -/
def Run.andThen (first second : Run) : Run where
  exit := second.exit
  machine := second.machine
  steps := first.steps + second.steps

namespace Machine

/-- The cycles that have passed between two states of a machine. -/
def cyclesSince (machine start : Machine) : Nat := machine.board.cycles - start.board.cycles

/-! ## Counting steps on -/

theorem runFor_add_steps (goal : Goal) (machine : Machine) (budget earlier steps : Nat) :
    let run := runFor goal machine budget steps
    runFor goal machine budget (earlier + steps) = ⟨run.exit, run.machine, earlier + run.steps⟩ := by
  refine runFor_induction goal
    (fun machine budget steps run => runFor goal machine budget (earlier + steps) =
      ⟨run.exit, run.machine, earlier + run.steps⟩)
    ?spent ?dead ?reached ?pending machine budget steps
  case spent =>
    intro machine steps
    rw [runFor_spent]
  case dead =>
    intro machine budget steps given free
    rw [runFor_dead given free, Nat.add_assoc]
  case reached =>
    intro machine budget steps exit given timed met
    rw [runFor_timed given timed, met, Nat.add_assoc]
  case pending =>
    intro machine budget steps run given timed unmet later
    rw [runFor_timed given timed, unmet, Nat.add_assoc, later]

theorem andThen_runFor (goal : Goal) (first : Run) (budget : Nat) :
    first.andThen (runFor goal first.machine budget 0) =
      runFor goal first.machine budget first.steps :=
  (runFor_add_steps goal first.machine budget first.steps 0).symm

/-! ## Cutting by the budget -/

theorem haltExit_ne (machine : Machine) :
    machine.haltExit ≠ .cycleLimit ∧ machine.haltExit ≠ .frames := by
  rw [haltExit]
  split <;> decide

theorem cycles_le_step (machine : Machine) :
    machine.board.cycles ≤ machine.step.2.board.cycles := by
  rw [cycles_step]
  exact Nat.le_add_right _ _

/-- What is left of a budget may be counted from the next step on. -/
theorem sub_cyclesSince_step {machine after : Machine} (budget : Nat)
    (later : machine.step.2.board.cycles ≤ after.board.cycles) :
    budget - machine.step.1 - after.cyclesSince machine.step.2 =
      budget - after.cyclesSince machine := by
  rw [cyclesSince, cyclesSince]
  rw [cycles_step] at later ⊢
  omega

/-- A run with a greater budget goes on from where the smaller one was spent, with what is left of
its own. If the run with the smaller budget ended for another reason, so does that with the greater
one. -/
theorem runFor_of_le {goal : Goal} (plain : ∀ sent machine, goal sent machine ≠ some .cycleLimit)
    (machine : Machine) {budget total : Nat} (le : budget ≤ total) (steps : Nat) :
    let first := runFor goal machine budget steps
    runFor goal machine total steps =
      if first.exit = .cycleLimit then
        runFor goal first.machine (total - first.machine.cyclesSince machine) first.steps
      else first := by
  refine (runFor_induction goal
    (fun machine budget steps first => machine.board.cycles ≤ first.machine.board.cycles ∧
      ∀ total, budget ≤ total → runFor goal machine total steps =
        if first.exit = .cycleLimit then
          runFor goal first.machine (total - first.machine.cyclesSince machine) first.steps
        else first)
    ?spent ?dead ?reached ?pending machine budget steps).2 total le
  case spent =>
    intro machine steps
    refine ⟨Nat.le_refl _, fun total le => ?_⟩
    rw [if_pos rfl, cyclesSince, Nat.sub_self, Nat.sub_zero]
  case dead =>
    intro machine budget steps given free
    refine ⟨machine.cycles_le_step, fun total le => ?_⟩
    rw [if_neg machine.step.2.haltExit_ne.1, runFor_dead (by omega) free]
  case reached =>
    intro machine budget steps exit given timed met
    refine ⟨machine.cycles_le_step, fun total le => ?_⟩
    have other : exit ≠ .cycleLimit := fun limit => plain _ _ (limit ▸ met)
    rw [if_neg other, runFor_timed (by omega) timed, met]
  case pending =>
    rintro machine budget steps first given timed unmet ⟨later, resumed⟩
    refine ⟨Nat.le_trans machine.cycles_le_step later, fun total le => ?_⟩
    rw [runFor_timed (by omega) timed, unmet, ← sub_cyclesSince_step total later]
    exact resumed _ (Nat.sub_le_sub_right le _)

/-! ## Cutting by the goal -/

/-- A run for a later frame goes on from where an earlier one was complete. If the run for the
earlier one ended without it, so does that for the later one. -/
theorem runFor_frames_of_le {target further : Nat} (le : target ≤ further) (machine : Machine)
    (budget steps : Nat) :
    let first := runFor (.frames target) machine budget steps
    runFor (.frames further) machine budget steps =
      if first.exit = .frames ∧ first.machine.board.ppu.frames < further then
        runFor (.frames further) first.machine (budget - first.machine.cyclesSince machine)
          first.steps
      else first := by
  refine (runFor_induction (.frames target)
    (fun machine budget steps first => machine.board.cycles ≤ first.machine.board.cycles ∧
      runFor (.frames further) machine budget steps =
        if first.exit = .frames ∧ first.machine.board.ppu.frames < further then
          runFor (.frames further) first.machine (budget - first.machine.cyclesSince machine)
            first.steps
        else first)
    ?spent ?dead ?reached ?pending machine budget steps).2
  case spent =>
    intro machine steps
    exact ⟨Nat.le_refl _, by rw [runFor_spent, if_neg (by simp)]⟩
  case dead =>
    intro machine budget steps given free
    refine ⟨machine.cycles_le_step, ?_⟩
    rw [if_neg fun both => machine.step.2.haltExit_ne.2 both.1, runFor_dead given free]
  case reached =>
    intro machine budget steps exit given timed met
    obtain ⟨-, rfl⟩ := Goal.frames_eq_some_iff.1 met
    refine ⟨machine.cycles_le_step, ?_⟩
    have since : machine.step.2.cyclesSince machine = machine.step.1 := by
      rw [cyclesSince, cycles_step, Nat.add_sub_cancel_left]
    rw [runFor_timed given timed, since]
    by_cases complete : further ≤ machine.step.2.board.ppu.frames
    · simp [Goal.frames, complete, Nat.not_lt_of_le complete]
    · simp [Goal.frames, complete, Nat.lt_of_not_le complete]
  case pending =>
    rintro machine budget steps first given timed unmet ⟨later, resumed⟩
    refine ⟨Nat.le_trans machine.cycles_le_step later, ?_⟩
    have missed := Nat.lt_of_lt_of_le (Goal.frames_eq_none_iff.1 unmet) le
    rw [runFor_timed given timed, Goal.frames_eq_none_iff.2 missed,
      ← sub_cyclesSince_step budget later]
    exact resumed

/-! ## One frame at a time -/

/-- Where the dots of six cycles are those of a frame at most, a step completes one frame at most. -/
theorem frames_step_le {machine : Machine}
    (slow : 6 * machine.board.config.dotsPerCycle ≤ frameDots) :
    machine.step.2.board.ppu.frames ≤ machine.board.ppu.frames + 1 := by
  have few := Nat.mul_le_mul_right machine.board.config.dotsPerCycle machine.cost_step_le
  have dots : Board.dots machine.board.config machine.step.1 ≤ frameDots :=
    Nat.le_trans (Nat.min_le_left _ _) (Nat.le_trans few slow)
  rw [Ppu.frames_eq, Ppu.frames_eq, clock_step]
  rw [frameDots_eq] at dots ⊢
  omega

theorem frames_runFor {target : Nat} {machine : Machine}
    (slow : 6 * machine.board.config.dotsPerCycle ≤ frameDots)
    (missed : machine.board.ppu.frames < target) (budget steps : Nat) :
    let run := runFor (.frames target) machine budget steps
    run.exit = .frames → run.machine.board.ppu.frames = target := by
  refine runFor_induction (.frames target)
    (fun machine _ _ run => 6 * machine.board.config.dotsPerCycle ≤ frameDots →
      machine.board.ppu.frames < target → run.exit = .frames →
      run.machine.board.ppu.frames = target)
    ?spent ?dead ?reached ?pending machine budget steps slow missed
  case spent => exact fun machine steps _ _ frames => nomatch frames
  case dead => exact fun machine budget steps _ _ _ _ frames => absurd frames (haltExit_ne _).2
  case reached =>
    intro machine budget steps exit given timed met slow missed _
    have atMost := frames_step_le slow
    have complete := (Goal.frames_eq_some_iff.1 met).1
    exact Nat.le_antisymm (Nat.le_trans atMost missed) complete
  case pending =>
    intro machine budget steps run given timed unmet later slow missed
    exact later (by rwa [config_step]) (Goal.frames_eq_none_iff.1 unmet)

/-! ## The runs as they are started -/

theorem banner_ne_cycleLimit (sent : Nat) (machine : Machine) :
    Goal.banner sent machine ≠ some .cycleLimit := by
  simp only [Goal.banner]
  grind

theorem runUntilSerial_eq (machine : Machine) {maxCycles : Nat}
    (room : machine.board.cycles + maxCycles < 2 ^ 64) :
    machine.runUntilSerial maxCycles = runFor .banner machine maxCycles 0 :=
  congrArg (runFor .banner machine · 0) (machine.budget_eq room)

theorem runFrames_eq_of_lt (machine : Machine) {frames maxCycles : Nat}
    (counted : machine.board.ppu.frames + frames < 2 ^ 64)
    (room : machine.board.cycles + maxCycles < 2 ^ 64) :
    machine.runFrames frames maxCycles =
      if frames = 0 then ⟨.frames, machine, 0⟩
      else runFor (.frames (machine.board.ppu.frames + frames)) machine maxCycles 0 := by
  have target : min (machine.board.ppu.frames + frames) (2 ^ 64 - 1) =
      machine.board.ppu.frames + frames := Nat.min_eq_left (by omega)
  have nothing : machine.board.ppu.frames + frames ≤ machine.board.ppu.frames ↔ frames = 0 := by
    omega
  simp only [runFrames_eq machine frames maxCycles room, target, nothing]

/-- The last step of a run overdraws its budget by five cycles at most. -/
theorem cycles_runFor_le (goal : Goal) (machine : Machine) (budget steps : Nat) :
    (runFor goal machine budget steps).machine.board.cycles ≤ machine.board.cycles + budget + 5 := by
  have left : budget = machine.board.cycles + budget - machine.board.cycles := by omega
  -- What does not move is the deadline; the budget is what is left until then.
  refine runFor_induction goal
    (fun start left _ run => left = machine.board.cycles + budget - start.board.cycles →
      start.board.cycles ≤ machine.board.cycles + budget + 5 →
      run.machine.board.cycles ≤ machine.board.cycles + budget + 5)
    ?spent ?dead ?reached ?pending machine budget steps left (by omega)
  case spent => exact fun start steps _ late => late
  case dead =>
    intro start left steps given free counted late
    rwa [cycles_step, free]
  case reached =>
    intro start left steps exit given timed met counted late
    have few := start.cost_step_le
    rw [cycles_step]
    omega
  case pending =>
    intro start left steps run given timed unmet later counted late
    have few := start.cost_step_le
    exact later (by rw [cycles_step]; omega) (by rw [cycles_step]; omega)

/-- What a run has left of its cycles fits the counter for the run that goes on. -/
theorem room_of_cycles_le {machine after : Machine} {budget : Nat}
    (late : after.board.cycles ≤ machine.board.cycles + budget + 5)
    (room : machine.board.cycles + budget + 5 < 2 ^ 64) :
    after.board.cycles + (budget - after.cyclesSince machine) < 2 ^ 64 := by
  rw [cyclesSince]
  omega

/-- A run for frames is the run for some of them and, if that completed them, the run for the others
with the cycles that are left. -/
theorem runFrames_add {machine : Machine} {frames more maxCycles : Nat}
    (slow : 6 * machine.board.config.dotsPerCycle ≤ 70224)
    (counted : machine.board.ppu.frames + frames + more < 2 ^ 64)
    (room : machine.board.cycles + maxCycles + 5 < 2 ^ 64) :
    let first := machine.runFrames frames maxCycles
    machine.runFrames (frames + more) maxCycles =
      if first.exit = .frames then
        first.andThen (first.machine.runFrames more
          (maxCycles - first.machine.cyclesSince machine))
      else first := by
  intro first
  have begun : first = _ := machine.runFrames_eq_of_lt (Nat.lt_of_add_right_lt counted)
    (Nat.lt_of_add_right_lt room)
  by_cases nothing : frames = 0
  · rw [if_pos nothing] at begun
    rw [begun, if_pos rfl, nothing, Nat.zero_add, cyclesSince, Nat.sub_self, Nat.sub_zero,
      Run.andThen]
    simp
  rw [if_neg nothing] at begun
  have late := cycles_runFor_le (.frames (machine.board.ppu.frames + frames)) machine maxCycles 0
  have pending : machine.board.ppu.frames < machine.board.ppu.frames + frames := by omega
  have reached := frames_runFor slow pending maxCycles 0
  have resumed := runFor_frames_of_le (Nat.le_add_right (machine.board.ppu.frames + frames) more)
    machine maxCycles 0
  rw [← begun] at late reached resumed
  rw [runFrames_eq_of_lt machine (by omega) (Nat.lt_of_add_right_lt room), if_neg (by omega),
    ← Nat.add_assoc, resumed]
  by_cases complete : first.exit = .frames
  · rw [if_pos complete, runFrames_eq_of_lt first.machine (by rw [reached complete]; omega)
      (room_of_cycles_le late room), reached complete]
    by_cases enough : more = 0
    · rw [if_neg (by omega), if_pos enough, Run.andThen, ← complete, Nat.add_zero]
    · rw [if_pos ⟨complete, by omega⟩, if_neg enough, andThen_runFor]
  · rw [if_neg fun both => complete both.1, if_neg complete]

/-- A run that waits for the program's result is the one that waits for fewer cycles and, if those
were spent, the one that goes on waiting for the others. -/
theorem runUntilSerial_add {machine : Machine} {maxCycles more : Nat}
    (room : machine.board.cycles + maxCycles + more + 5 < 2 ^ 64) :
    let first := machine.runUntilSerial maxCycles
    machine.runUntilSerial (maxCycles + more) =
      if first.exit = .cycleLimit then
        first.andThen (first.machine.runUntilSerial
          (maxCycles + more - first.machine.cyclesSince machine))
      else first := by
  intro first
  have begun : first = runFor .banner machine maxCycles 0 :=
    machine.runUntilSerial_eq (by omega)
  have late := cycles_runFor_le .banner machine maxCycles 0
  have resumed := runFor_of_le banner_ne_cycleLimit machine (Nat.le_add_right maxCycles more) 0
  rw [← begun] at late resumed
  have within : first.machine.board.cycles ≤ machine.board.cycles + (maxCycles + more) + 5 := by
    omega
  rw [runUntilSerial_eq machine (by omega), resumed,
    runUntilSerial_eq first.machine (room_of_cycles_le within (by omega)), andThen_runFor]

/-- Runs compose: those for frames where no step completes two, those that wait for the program's
result always. -/
theorem runs_compose (machine : Machine) :
    (∀ frames more maxCycles : Nat,
      6 * machine.board.config.dotsPerCycle ≤ 70224 →
      machine.board.ppu.frames + frames + more < 2 ^ 64 →
      machine.board.cycles + maxCycles + 5 < 2 ^ 64 →
      let first := machine.runFrames frames maxCycles
      machine.runFrames (frames + more) maxCycles =
        if first.exit = .frames then
          first.andThen (first.machine.runFrames more
            (maxCycles - first.machine.cyclesSince machine))
        else first) ∧
    (∀ maxCycles more : Nat,
      machine.board.cycles + maxCycles + more + 5 < 2 ^ 64 →
      let first := machine.runUntilSerial maxCycles
      machine.runUntilSerial (maxCycles + more) =
        if first.exit = .cycleLimit then
          first.andThen (first.machine.runUntilSerial
            (maxCycles + more - first.machine.cyclesSince machine))
        else first) :=
  ⟨fun _ _ _ => runFrames_add, fun _ _ => runUntilSerial_add⟩

/-- Two frames at four dots a cycle, with a budget for one, and a wait that is cut in two. -/
theorem runs_compose_initial :
    let start := Machine.initial { dotsPerCycle := 4 }
    let first := start.runFrames 1 20000
    let waited := start.runUntilSerial 1001
    6 * start.board.config.dotsPerCycle ≤ 70224 ∧
    start.board.ppu.frames + 1 + 1 < 2 ^ 64 ∧ start.board.cycles + 20000 + 5 < 2 ^ 64 ∧
    start.runFrames 2 20000 =
      (if first.exit = .frames then
        first.andThen (first.machine.runFrames 1 (20000 - first.machine.cyclesSince start))
      else first) ∧
    start.board.cycles + 1001 + 1000 + 5 < 2 ^ 64 ∧
    start.runUntilSerial 2001 =
      if waited.exit = .cycleLimit then
        waited.andThen (waited.machine.runUntilSerial (2001 - waited.machine.cyclesSince start))
      else waited := by
  intro start first waited
  have slow : 6 * start.board.config.dotsPerCycle ≤ 70224 := by decide
  have counted : start.board.ppu.frames + 1 + 1 < 2 ^ 64 := by decide
  have room : start.board.cycles + 20000 + 5 < 2 ^ 64 := by decide
  have longer : start.board.cycles + 1001 + 1000 + 5 < 2 ^ 64 := by decide
  obtain ⟨forFrames, forResult⟩ := runs_compose start
  exact ⟨slow, counted, room, forFrames 1 1 20000 slow counted room, longer,
    forResult 1001 1000 longer⟩

end Machine

end DotMatrix
