import DotMatrix.Proofs.Cpu.Footprint
import DotMatrix.Proofs.Machine.Rom

/-!
# Standing still

The only sign that a machine does not go on is a step that returns no cycles. It comes when the
processor was stopped before the step, and when it is locked up after it; every other step takes at
least one cycle, also one that only waits. A lock-up leaves no trace but in the processor, although
an opcode was fetched for it. And a machine that stands still does so, whatever makes it go on
otherwise, until it is reset.

Results:
1. `cost_step_eq_zero_iff`: when a step returns no cycles.
2. `step_of_unused`: what a lock-up leaves of the machine.
3. `replay_of_dead`: a machine that stands still is not changed by steps and runs.
4. `standstill`: all of it.
-/

namespace DotMatrix

open Memory

/-- The processor is locked up after a step that cost nothing, and only then. -/
theorem Cpu.locked_step_iff {μ : Type} [Memory μ] (cpu : Cpu) (memory : μ) :
    (cpu.step.run memory).1.2.locked = true ↔ (cpu.step.run memory).1.1 = 0 := by
  refine ⟨fun locked => ?_, locked_of_cost_eq_zero⟩
  cases cpu.phase memory with
  | dead locked => rw [run_step_of_locked memory locked]
  | waiting waits =>
    rw [waits.run_step] at locked
    exact Bool.noConfusion (waits.running.symm.trans locked)
  | lockingUp fetches => rw [fetches.run_step_unused]
  | executing instruction fetches valid =>
    have kept := (fetches.changesOnly_step valid).locked
    rw [locked, fetches.running] at kept
    exact Bool.noConfusion kept

namespace Board

theorem isRunning_eq_false_iff (board : Board) :
    board.isRunning = false ↔ board.cpu.stopped = true ∨ board.cpu.locked = true := by
  simp [isRunning, ← Bool.not_eq_true, imp_iff_not_or]

end Board

namespace Machine

variable {machine : Machine}

theorem withParts_self (machine : Machine) :
    machine.withParts machine.board.cpu machine.board.serial machine.board.ppu 0 machine.memory =
      machine := rfl

/-! ## Steps without cycles -/

theorem cost_step_eq_zero_iff (machine : Machine) :
    machine.step.1 = 0 ↔
      machine.board.cpu.stopped = true ∨ machine.step.2.board.cpu.locked = true := by
  have locked_iff : machine.executed.1.2.locked = true ↔ machine.executed.1.1 = 0 :=
    machine.board.cpu.locked_step_iff machine.memory
  cases machine.stepCase with
  | stopped stopped =>
    rw [step_of_stopped stopped]
    exact ⟨fun _ => .inl stopped, fun _ => rfl⟩
  | free going free =>
    rw [step_of_free going free, withParts_cpu]
    exact ⟨fun _ => .inr (locked_iff.2 free), fun _ => rfl⟩
  | timed going timed =>
    rw [step_of_timed going timed, withParts_cpu, locked_iff, going]
    exact ⟨.inr, fun either => either.resolve_left Bool.false_ne_true⟩

/-- A step that meets an opcode without a meaning changes nothing but the processor, and of it only
the program counter and two latches: it is locked up, and not halted if it was waiting. -/
theorem step_of_unused (going : machine.board.cpu.stopped = false)
    (fetches : machine.board.cpu.Fetches machine.memory .unused) :
    machine.step = (0, machine.withParts { machine.board.cpu.fetched with locked := true }
      machine.board.serial machine.board.ppu 0 machine.memory) := by
  have executed : machine.executed =
      ((0, { machine.board.cpu.fetched with locked := true }), machine.memory) :=
    fetches.run_step_unused
  have free : machine.executed.1.1 = 0 := by rw [executed]
  rw [step_of_free going free, executed]

/-! ## What makes a machine go on -/

theorem step_of_dead (dead : machine.board.isRunning = false) : machine.step = (0, machine) := by
  cases going : machine.board.cpu.stopped with
  | true => exact step_of_stopped going
  | false =>
    have locked : machine.board.cpu.locked = true :=
      (machine.board.isRunning_eq_false_iff.1 dead).resolve_left (ne_true_of_eq_false going)
    have executed : machine.executed = ((0, machine.board.cpu), machine.memory) :=
      Cpu.run_step_of_locked machine.memory locked
    have free : machine.executed.1.1 = 0 := by rw [executed]
    rw [step_of_free going free, executed, withParts_self]

theorem steps_of_dead (dead : machine.board.isRunning = false) (count : Nat) :
    machine.steps count = (List.replicate count 0, machine) := by
  induction count with
  | zero => rfl
  | succ count ih => rw [steps, step_of_dead dead, ih, List.replicate_succ]

/-- A run of a machine that stands still ends at once: its first step, if it makes one, tells. -/
theorem runFor_of_dead (dead : machine.board.isRunning = false) (goal : Goal)
    (budget steps : Nat) :
    runFor goal machine budget steps =
      if budget = 0 then ⟨.cycleLimit, machine, steps⟩
      else ⟨machine.haltExit, machine, steps + 1⟩ := by
  by_cases spent : budget = 0
  · rw [if_pos spent, spent, runFor_spent]
  · have still := step_of_dead dead
    rw [if_neg spent, runFor_dead spent (by rw [still]), still]

theorem runFrames_of_dead (dead : machine.board.isRunning = false) (frames maxCycles : Nat) :
    let run := machine.runFrames frames maxCycles
    run.machine = machine ∧ run.steps ≤ 1 := by
  simp only [runFrames, runFor_of_dead dead]
  split
  · exact ⟨rfl, Nat.zero_le 1⟩
  · split
    · exact ⟨rfl, Nat.zero_le 1⟩
    · exact ⟨rfl, Nat.le_refl 1⟩

theorem runUntilSerial_of_dead (dead : machine.board.isRunning = false) (maxCycles : Nat) :
    let run := machine.runUntilSerial maxCycles
    run.machine = machine ∧ run.steps ≤ 1 := by
  simp only [runUntilSerial, runFor_of_dead dead]
  split
  · exact ⟨rfl, Nat.zero_le 1⟩
  · exact ⟨rfl, Nat.le_refl 1⟩

/-- Whether an action makes a machine go on by itself. -/
def Action.drives : Action → Bool
  | .step | .runFrames _ _ | .runUntilSerial _ => true
  | _ => false

theorem act_of_dead (dead : machine.board.isRunning = false) {action : Action}
    (drives : action.drives = true) : machine.act action = machine := by
  cases action with
  | step => exact congrArg Prod.snd (step_of_dead dead)
  | runFrames frames maxCycles => exact (runFrames_of_dead dead frames maxCycles).1
  | runUntilSerial maxCycles => exact (runUntilSerial_of_dead dead maxCycles).1
  | insert | reset | stepCpu | poll | tick | write => exact Bool.noConfusion drives

theorem replay_of_dead (dead : machine.board.isRunning = false) {actions : List Action}
    (drives : ∀ action ∈ actions, action.drives = true) : replay actions machine = machine := by
  induction actions with
  | nil => rfl
  | cons action later ih =>
    rw [replay_cons, act_of_dead dead (drives action List.mem_cons_self)]
    exact ih fun action member => drives action (List.mem_cons_of_mem _ member)

/-- A step returns no cycles exactly when the processor was stopped before it or is locked up after
it, and at most six otherwise. On an opcode without a meaning it returns none, and the machine is
the same in every part but for the processor's program counter and its latches. A machine that was
stopped or locked up is left as it is by every step and every run, which ends after a step at most;
only a reset makes it go on. -/
theorem standstill (machine : Machine) :
    let cpu := machine.board.cpu
    let next := machine.step
    let lockedUp := { cpu with
      registers := { cpu.registers with pc := cpu.registers.pc + 1 }
      halted := cpu.halted && !cpu.haltGating
      locked := true }
    (next.1 = 0 ↔ cpu.stopped = true ∨ next.2.board.cpu.locked = true) ∧
    (next.1 = 0 ∨ 1 ≤ next.1 ∧ next.1 ≤ 6) ∧
    (machine.board.isRunning = true → ¬ cpu.Waits machine.memory →
      load machine.memory cpu.registers.pc ∈ Instruction.unusedOpcodes →
      next = (0, { machine with board := { machine.board with cpu := lockedUp } })) ∧
    (machine.board.isRunning = false →
      (∀ count, machine.steps count = (List.replicate count 0, machine)) ∧
      (∀ frames maxCycles, (machine.runFrames frames maxCycles).machine = machine ∧
        (machine.runFrames frames maxCycles).steps ≤ 1) ∧
      (∀ maxCycles, (machine.runUntilSerial maxCycles).machine = machine ∧
        (machine.runUntilSerial maxCycles).steps ≤ 1) ∧
      (∀ actions : List Action, (∀ action ∈ actions, action.drives = true) →
        replay actions machine = machine) ∧
      machine.reset.board.isRunning = true) := by
  intro cpu next lockedUp
  refine ⟨machine.cost_step_eq_zero_iff, ?cost, ?unused, ?dead⟩
  case cost =>
    have few := machine.cost_step_le
    exact (Nat.eq_zero_or_pos next.1).imp_right fun pos => ⟨pos, few⟩
  case unused =>
    intro running awake unused
    have neither : ¬ (cpu.stopped = true ∨ cpu.locked = true) := fun either =>
      Bool.noConfusion (running.symm.trans (machine.board.isRunning_eq_false_iff.2 either))
    have going : cpu.stopped = false := Bool.eq_false_iff.2 fun stopped => neither (.inl stopped)
    have unlocked : cpu.locked = false := Bool.eq_false_iff.2 fun locked => neither (.inr locked)
    exact step_of_unused going ⟨unlocked, awake, (Instruction.lookup_eq_unused_iff _).2 unused⟩
  case dead =>
    intro dead
    exact ⟨steps_of_dead dead, runFrames_of_dead dead, runUntilSerial_of_dead dead,
      fun _ => replay_of_dead dead, rfl⟩

/-- A program whose first opcode has no meaning: the machine locks up and stays so. -/
theorem standstill_first_opcode :
    let program : Cartridge.Image := .replicate 0x100 0x00 ++ #[0xDD]
    let start := (Machine.initial {}).insert program
    start.board.isRunning = true ∧ ¬ start.board.cpu.Waits start.memory ∧
      load start.memory start.board.cpu.registers.pc ∈ Instruction.unusedOpcodes ∧
      start.step.1 = 0 ∧ start.step.2.memory = start.memory ∧
      start.step.2.board.isRunning = false ∧
      (∀ action ∈ [Action.step, .runFrames 3 1000000], action.drives = true) ∧
      replay [.step, .runFrames 3 1000000] start.step.2 = start.step.2 := by
  intro program start
  have same : start.board = .initial {} := board_insert _ program
  have running : start.board.isRunning = true := by rw [same]; rfl
  have awake : ¬ start.board.cpu.Waits start.memory :=
    Cpu.not_waits_of_awake (by rw [same]; rfl)
  have unused : load start.memory start.board.cpu.registers.pc ∈ Instruction.unusedOpcodes := by
    have shown := (Maps.insert (Machine.initial {}) program).rom 0x0100 (by decide)
    have opcode : program.getD 0x100 0 = 0xDD := by decide +kernel
    have counter : start.board.cpu.registers.pc = 0x0100 := by rw [same]; rfl
    rw [counter]
    rewrite [shown.trans opcode]
    decide
  obtain ⟨-, -, locksUp, -⟩ := standstill start
  have stepped := locksUp running awake unused
  have free : start.step.1 = 0 := by rw [stepped]
  have kept : start.step.2.memory = start.memory := by rw [stepped]
  have dead : start.step.2.board.isRunning = false :=
    start.step.2.board.isRunning_eq_false_iff.2 (dead_of_cost_eq_zero free).2.symm
  have driven : ∀ action ∈ [Action.step, .runFrames 3 1000000], action.drives = true := by decide
  obtain ⟨-, -, -, stays⟩ := standstill start.step.2
  obtain ⟨-, -, -, replayed, -⟩ := stays dead
  exact ⟨running, awake, unused, free, kept, dead, driven, replayed _ driven⟩

end Machine

end DotMatrix
