import DotMatrix.Proofs.Machine.Budget
import DotMatrix.Proofs.Machine.SerialOutput

/-!
# Waiting for the result of the tests

A run that waits for the program's result searches the log only after a step that has sent a byte.
Here it is compared with the plain loop, which can look at everything after every step. As long as
the log tells no result, both end at the same step with the same exit: a result cannot appear in a
log that has not grown. A result that is told already is never lost again, so a run that starts with
one ends with the next byte.

Results:
1. `watch`: the plain loop.
2. `runFor_eq_watch`: when a run with a goal ends as the plain loop does.
3. `runUntilSerial_eq_watch`: the run that waits for the result, for logs that tell none and logs
   that tell one.
-/

namespace DotMatrix

namespace SerialLog

/-- The result that a log tells, if any. -/
def verdict (log : SerialLog) : Option Exit :=
  if log.contains "Passed" then some .passed
  else if log.contains "Failed" then some .failed
  else none

theorem verdict_eq_none_iff (log : SerialLog) :
    log.verdict = none ↔ log.contains "Passed" = false ∧ log.contains "Failed" = false := by
  cases passed : log.contains "Passed" <;> cases failed : log.contains "Failed" <;>
    simp [verdict, passed, failed]

/-- A log that tells a result tells one after another byte as well. -/
theorem verdict_append_ne_none {log : SerialLog} (told : log.verdict ≠ none) (byte : UInt8) :
    (log.append byte).verdict ≠ none := by
  intro lost
  obtain ⟨notPassed, notFailed⟩ := (verdict_eq_none_iff _).1 lost
  refine told ((verdict_eq_none_iff _).2 ⟨?_, ?_⟩)
  · refine Bool.eq_false_iff.2 fun passed => ?_
    rw [contains_append (by simp) passed] at notPassed
    cases notPassed
  · refine Bool.eq_false_iff.2 fun failed => ?_
    rw [contains_append (by simp) failed] at notFailed
    cases notFailed

end SerialLog

namespace Machine

/-! ## The plain loop -/

/-- Makes steps until the cycles reach `deadline`, the processor stops or locks up, or `look`, which
sees the machine before and after each step, gives an exit. -/
def watch (look : Machine → Machine → Option Exit) (deadline : Nat) (machine : Machine) :
    Exit × Machine :=
  if _spent : deadline ≤ machine.board.cycles then (.cycleLimit, machine)
  else if _dead : machine.step.1 = 0 then (machine.step.2.haltExit, machine.step.2)
  else
    match look machine machine.step.2 with
    | some exit => (exit, machine.step.2)
    | none => watch look deadline machine.step.2
termination_by deadline - machine.board.cycles
decreasing_by
  rw [cycles_step]
  omega

/-- The result that is told after a step, whether it was told before or not. -/
def toldResult (_before after : Machine) : Option Exit := after.board.serial.verdict

/-- The result that is told after a step that has sent a byte; it can only be that of the failed
tests if it is not that of the passed ones. -/
def resultOnByte (before after : Machine) : Option Exit :=
  if after.board.serial.bytes = before.board.serial.bytes then none
  else if after.board.serial.contains "Passed" then some .passed
  else some .failed

section

variable {look : Machine → Machine → Option Exit} {deadline : Nat} {machine : Machine}

theorem watch_spent (spent : deadline ≤ machine.board.cycles) :
    machine.watch look deadline = (.cycleLimit, machine) := by
  rw [Machine.watch, dif_pos spent]

theorem watch_dead (early : machine.board.cycles < deadline) (free : machine.step.1 = 0) :
    machine.watch look deadline = (machine.step.2.haltExit, machine.step.2) := by
  rw [Machine.watch, dif_neg (Nat.not_le_of_lt early), dif_pos free]

theorem watch_timed (early : machine.board.cycles < deadline) (timed : machine.step.1 ≠ 0) :
    machine.watch look deadline =
      match look machine machine.step.2 with
      | some exit => (exit, machine.step.2)
      | none => machine.step.2.watch look deadline := by
  rw [Machine.watch, dif_neg (Nat.not_le_of_lt early), dif_neg timed]

end

/-- A run ends as the plain loop does, if its goal sees what the loop sees as long as something
holds, and that goes on to hold until something is seen. -/
theorem runFor_eq_watch {goal : Goal} {look : Machine → Machine → Option Exit}
    (holds : Machine → Prop)
    (agree : ∀ machine, holds machine →
      goal machine.board.serial.bytes.size machine.step.2 = look machine machine.step.2)
    (keeps : ∀ machine, holds machine → look machine machine.step.2 = none → holds machine.step.2)
    {machine : Machine} (start : holds machine) (deadline steps : Nat) :
    let run := runFor goal machine (deadline - machine.board.cycles) steps
    (run.exit, run.machine) = machine.watch look deadline := by
  refine runFor_induction goal
    (fun machine budget _ run => budget = deadline - machine.board.cycles → holds machine →
      (run.exit, run.machine) = machine.watch look deadline)
    ?spent ?dead ?reached ?pending machine _ steps rfl start
  case spent =>
    intro machine steps left _
    rw [watch_spent (Nat.le_of_sub_eq_zero left.symm)]
  case dead =>
    intro machine budget steps given free left _
    rw [watch_dead (by omega) free]
  case reached =>
    intro machine budget steps exit given timed met left hold
    rw [watch_timed (by omega) timed, ← agree machine hold, met]
  case pending =>
    intro machine budget steps run given timed unmet later left hold
    have unseen : look machine machine.step.2 = none := (agree machine hold).symm.trans unmet
    rw [watch_timed (by omega) timed, unseen]
    exact later (by rw [cycles_step]; omega) (keeps machine hold unseen)

/-! ## Waiting for the result -/

/-- While no result is told, it is enough to search the log when it has grown. -/
theorem banner_eq_toldResult {machine : Machine} (untold : machine.board.serial.verdict = none) :
    Goal.banner machine.board.serial.bytes.size machine.step.2 =
      toldResult machine machine.step.2 := by
  rw [toldResult, Goal.banner]
  split
  · next same => rw [serial_step_of_size_eq same, untold]
  · rfl

/-- Once a result is told, the next byte ends the run. -/
theorem banner_eq_resultOnByte {machine : Machine} (told : machine.board.serial.verdict ≠ none) :
    Goal.banner machine.board.serial.bytes.size machine.step.2 =
      resultOnByte machine machine.step.2 := by
  rcases machine.serial_step with kept | ⟨-, byte, sent⟩
  · simp [Goal.banner, resultOnByte, kept]
  · have still := SerialLog.verdict_append_ne_none told byte
    have grown :
        (machine.board.serial.append byte).bytes.size ≠ machine.board.serial.bytes.size := by
      rw [SerialLog.size_append]
      exact Nat.succ_ne_self _
    have other : (machine.board.serial.append byte).bytes ≠ machine.board.serial.bytes :=
      fun same => grown (congrArg Array.size same)
    rw [← sent] at still grown other
    rw [Goal.banner, if_neg grown, resultOnByte, if_neg other]
    rw [SerialLog.verdict] at still
    split
    · rfl
    · next notPassed =>
      rw [if_neg notPassed] at still
      split
      · rfl
      · next notFailed => exact absurd (if_neg notFailed) still

theorem verdict_step_ne_none {machine : Machine} (told : machine.board.serial.verdict ≠ none) :
    machine.step.2.board.serial.verdict ≠ none := by
  rcases machine.serial_step with kept | ⟨-, byte, sent⟩
  · rwa [kept]
  · rw [sent]
    exact SerialLog.verdict_append_ne_none told byte

/-- The run that waits for the program's result ends after at most as many steps as it was given
cycles. If the log tells no result yet, it ends as the plain loop does that searches the whole log
after every step. If the log tells one already, it ends with a result at the first step that sends
another byte, unless the cycles are spent or the processor stops or locks up before. -/
theorem runUntilSerial_eq_watch (machine : Machine) (maxCycles : Nat)
    (room : machine.board.cycles + maxCycles + 5 < 2 ^ 64) :
    let serial := machine.board.serial
    let run := machine.runUntilSerial maxCycles
    let deadline := machine.board.cycles + maxCycles
    run.steps ≤ maxCycles ∧ run.machine = (machine.steps run.steps).2 ∧
    (serial.contains "Passed" = false → serial.contains "Failed" = false →
      (run.exit, run.machine) = machine.watch toldResult deadline) ∧
    (serial.contains "Passed" = true ∨ serial.contains "Failed" = true →
      (run.exit, run.machine) = machine.watch resultOnByte deadline) := by
  intro serial run deadline
  have given : machine.budget maxCycles = deadline - machine.board.cycles :=
    (machine.budget_eq (Nat.lt_of_add_right_lt room)).trans (Nat.add_sub_cancel_left _ _).symm
  have looped : run = runFor .banner machine (deadline - machine.board.cycles) 0 :=
    congrArg (runFor .banner machine · 0) given
  obtain ⟨few, reached⟩ := steps_runFor_zero .banner machine (deadline - machine.board.cycles)
  rw [← looped] at few reached
  refine ⟨Nat.le_trans few (Nat.le_of_eq (Nat.add_sub_cancel_left _ _)), reached, ?untold, ?told⟩
  case untold =>
    intro notPassed notFailed
    have untold : serial.verdict = none := serial.verdict_eq_none_iff.2 ⟨notPassed, notFailed⟩
    rw [looped]
    exact runFor_eq_watch (fun machine => machine.board.serial.verdict = none)
      (fun _ => banner_eq_toldResult) (fun _ _ unseen => unseen) untold deadline 0
  case told =>
    intro found
    have told : serial.verdict ≠ none := by
      intro untold
      obtain ⟨notPassed, notFailed⟩ := serial.verdict_eq_none_iff.1 untold
      rcases found with passed | failed
      · exact Bool.noConfusion (passed.symm.trans notPassed)
      · exact Bool.noConfusion (failed.symm.trans notFailed)
    rw [looped]
    exact runFor_eq_watch (fun machine => machine.board.serial.verdict ≠ none)
      (fun _ => banner_eq_resultOnByte) (fun _ told _ => verdict_step_ne_none told) told deadline 0

/-- A machine with an empty log, and one whose log tells of failed tests and begins a character that
never ends. -/
theorem runUntilSerial_eq_watch_empty_failed :
    let silent := Machine.initial {}
    let log : SerialLog := ⟨#[0xE2, 0x46, 0x61, 0x69, 0x6C, 0x65, 0x64, 0xF0], false⟩
    let failed := { silent with board := { silent.board with serial := log } }
    (silent.board.cycles + 1000 + 5 < 2 ^ 64 ∧ silent.board.serial.contains "Passed" = false ∧
      silent.board.serial.contains "Failed" = false ∧
      ((silent.runUntilSerial 1000).exit, (silent.runUntilSerial 1000).machine) =
        silent.watch toldResult 1000) ∧
    (failed.board.cycles + 1000 + 5 < 2 ^ 64 ∧ failed.board.serial.contains "Failed" = true ∧
      ((failed.runUntilSerial 1000).exit, (failed.runUntilSerial 1000).machine) =
        failed.watch resultOnByte 1000) := by
  intro silent log failed
  have room : silent.board.cycles + 1000 + 5 < 2 ^ 64 := by decide
  have noBytes : silent.board.serial.bytes.toList = [] := rfl
  have notPassed : silent.board.serial.contains "Passed" = false := by
    rw [Bool.eq_false_iff, Ne, SerialLog.contains_iff _ (by simp), noBytes]
    decide
  have notFailed : silent.board.serial.contains "Failed" = false := by
    rw [Bool.eq_false_iff, Ne, SerialLog.contains_iff _ (by simp), noBytes]
    decide
  have found : failed.board.serial.contains "Failed" = true := by
    rw [SerialLog.contains_iff _ (by simp)]
    decide
  obtain ⟨-, -, untold, -⟩ := runUntilSerial_eq_watch silent 1000 room
  obtain ⟨-, -, -, told⟩ := runUntilSerial_eq_watch failed 1000 room
  have deadline : silent.board.cycles + 1000 = 1000 := rfl
  have deadline' : failed.board.cycles + 1000 = 1000 := rfl
  rw [deadline] at untold
  rw [deadline'] at told
  exact ⟨⟨room, notPassed, notFailed, untold notPassed notFailed⟩, room, found, told (.inr found)⟩

end Machine

end DotMatrix
