import DotMatrix.Proofs.Cpu.Footprint
import DotMatrix.Proofs.Machine.LockStep
import DotMatrix.Proofs.Machine.Rom
import DotMatrix.Proofs.Machine.SerialOutput
import DotMatrix.Proofs.Video.Registers

/-!
# Every byte once

A transfer is started by a level, the value of the serial control register, and the register is only
looked at when the processor's part of a step is over. Still no byte is lost and none is taken
twice: looking ends the transfer, and between two looks nobody but the instruction of a step can
start one. So a machine that no one else writes to is quiet at the end of every step.

Results:
1. `Cpu.startsTransfer_of_load`: a transfer that a step leaves was started by its instruction.
2. `quiet_step`, `SwitchedOn.quiet`: no transfer is left over at the end of a step.
3. `bytes_step`, `bytes_steps`: what is in the log is what the processor's parts offered.
4. `bytes_replay`: nothing but a reset takes bytes out of the log.
5. `serial_capture`: all of it, for any number of steps.
-/

namespace DotMatrix

open Memory HardwareRegister

/-! ## What the parts of a step do to the register -/

theorem Ppu.load_tick_of_not_signal {μ : Type} [Memory μ] [PlainMemory μ] (ppu : Ppu) (dots : Nat)
    (memory : μ) {address : UInt16} (other : ¬ IsSignal address) :
    load ((ppu.tick dots).run memory).2 address = load memory address := by
  rw [run_tick, outcome_memory]
  exact ((Undisturbed.refl memory).elapse _ _).other address other

namespace Cpu

variable {μ : Type} [Memory μ] {cpu : Cpu} {memory : μ}

/-- A step that takes no time does not touch the memory. -/
theorem memory_step_of_cost_eq_zero (free : (cpu.step.run memory).1.1 = 0) :
    (cpu.step.run memory).2 = memory := by
  cases cpu.phase memory with
  | dead locked => rw [run_step_of_locked memory locked]
  | waiting waits => rw [waits.run_step]
  | lockingUp fetches => rw [fetches.run_step_unused]
  | executing instruction fetches valid =>
    rw [fetches.cost_step valid] at free
    exact absurd (Nat.eq_zero_of_add_eq_zero_right free)
      (Nat.ne_of_gt (Instruction.cycles_pos valid))

/-- The instruction at the program counter is one that writes to the serial control register, and it
writes the value that starts a transfer. -/
def StartsTransfer (cpu : Cpu) (memory : μ) : Prop :=
  ∃ instruction, cpu.Fetches memory instruction ∧
    serialControl ∈ instruction.writes cpu.registers (load memory (cpu.registers.pc + 1))
      (load memory (cpu.registers.pc + 2)) ∧
    .write serialControl SerialLog.transferStart ∈
      (cpu.fetched.execute instruction).accesses memory

theorem startsTransfer_of_load [PlainMemory μ]
    (before : load memory serialControl ≠ SerialLog.transferStart)
    (after : load (cpu.step.run memory).2 serialControl = SerialLog.transferStart) :
    cpu.StartsTransfer memory := by
  cases cpu.phase memory with
  | dead locked =>
    rw [run_step_of_locked memory locked] at after
    exact absurd after before
  | waiting waits =>
    rw [waits.run_step] at after
    exact absurd after before
  | lockingUp fetches =>
    rw [fetches.run_step_unused] at after
    exact absurd after before
  | executing instruction fetches valid =>
    have named := fetches.writes_step valid
    rw [fetches.run_step valid] at after
    dsimp only at after
    have changed : load ((cpu.fetched.execute instruction).run memory).2 serialControl ≠
        load memory serialControl := fun same => before (same.symm.trans after)
    have wrote := PlainMemory.write_of_load_run_ne (by decide) changed
    rw [after] at wrote
    have made : .write serialControl SerialLog.transferStart ∈ cpu.step.accesses memory := by
      rw [fetches.accesses_step valid]
      exact List.mem_append_right _ (List.mem_cons_of_mem _ wrote)
    exact ⟨instruction, fetches, named ▸ Transaction.mem_writes made, wrote⟩

end Cpu

namespace Machine

/-! ## Quiet machines -/

/-- No transfer is going on. -/
def Quiet (machine : Machine) : Prop :=
  load machine.memory serialControl ≠ SerialLog.transferStart

variable {machine : Machine}

/-- With nothing to send, a step is the processor's part and the dots of its cycles. -/
theorem step_of_unsent (going : machine.board.cpu.stopped = false)
    (timed : machine.executed.1.1 ≠ 0)
    (unsent : load machine.executed.2 serialControl ≠ SerialLog.transferStart) :
    let ticked := (machine.board.ppu.tick
      (Board.dots machine.board.config machine.executed.1.1)).run machine.executed.2
    machine.step = (machine.executed.1.1, machine.withParts machine.executed.1.2
      machine.board.serial ticked.1.2 machine.executed.1.1 ticked.2) := by
  have polled : machine.polled = ((none, machine.board.serial), machine.executed.2) := by
    rw [Machine.polled, SerialLog.run_poll, if_neg unsent]
  rw [step_of_timed going timed, ticked, polled]

theorem quiet_step (quiet : machine.Quiet) : machine.step.2.Quiet := by
  cases machine.stepCase with
  | stopped stopped =>
    rw [step_of_stopped stopped]
    exact quiet
  | free going free =>
    have kept : machine.executed.2 = machine.memory := Cpu.memory_step_of_cost_eq_zero free
    rwa [step_of_free going free, kept, Quiet, withParts_memory]
  | timed going timed =>
    -- If the instruction started a transfer, the port has ended it, and the display starts none.
    have shown : load machine.ticked.2 serialControl = load machine.polled.2 serialControl :=
      Ppu.load_tick_of_not_signal _ _ _ (by unfold IsSignal; decide)
    rw [step_of_timed going timed, Quiet, withParts_memory, shown, polled, SerialLog.run_poll]
    split
    case isTrue =>
      rw [PlainMemory.load_store_hardware (by decide), if_pos rfl]
      decide
    case isFalse idle => exact idle

theorem load_initial_serialControl : load MemoryMap.initial serialControl = 0x7E := by
  decide +kernel

theorem SwitchedOn.quiet (fresh : SwitchedOn machine) : machine.Quiet := by
  have other : serialControl ≠ displayStatus := by decide
  have above : ¬ serialControl ≤ 0x7FFF := by decide
  have apart : (0x7E : UInt8) ≠ SerialLog.transferStart := by decide
  induction fresh with
  | initial config =>
    change load (synchronised MemoryMap.initial) serialControl ≠ _
    rw [synchronised, load_setMode, if_neg other, load_initial_serialControl]
    exact apart
  | reset machine =>
    change load (synchronised (MemoryMap.initial.insert machine.cartridge)) serialControl ≠ _
    rw [synchronised, load_setMode, if_neg other, MemoryMap.load_insert_of_not_rom _ _ above,
      load_initial_serialControl]
    exact apart
  | @insert machine image fresh quiet =>
    change load (machine.memory.insert image) serialControl ≠ _
    rw [MemoryMap.load_insert_of_not_rom _ _ above]
    exact quiet

theorem SwitchedOn.bytes_eq (fresh : SwitchedOn machine) :
    machine.board.serial.bytes = #[] := by
  induction fresh with
  | initial config => rfl
  | reset machine => rfl
  | insert image _ ih => rwa [board_insert]

/-! ## What is offered and what is taken -/

/-- The byte that the processor's part of the next step leaves to be sent, if it leaves one. -/
def offered (machine : Machine) : Option UInt8 :=
  if machine.board.cpu.stopped then none
  else if load machine.executed.2 serialControl = SerialLog.transferStart then
    some (load machine.executed.2 serialData)
  else none

/-- The bytes that the processor's parts of so many steps leave to be sent, in order. -/
def offeredBy (machine : Machine) : Nat → List UInt8
  | 0 => []
  | count + 1 => machine.offered.toList ++ machine.step.2.offeredBy count

theorem startsTransfer_of_offered (quiet : machine.Quiet) {byte : UInt8}
    (offers : machine.offered = some byte) :
    machine.board.cpu.StartsTransfer machine.memory := by
  unfold offered at offers
  split at offers
  case isTrue => cases offers
  case isFalse going =>
    obtain ⟨started, -⟩ := Option.ite_none_right_eq_some.1 offers
    exact Cpu.startsTransfer_of_load quiet started

/-- A step takes what is offered, and nothing else. -/
theorem serial_step_of_quiet (quiet : machine.Quiet) :
    machine.step.2.board.serial =
      machine.offered.elim machine.board.serial machine.board.serial.append := by
  unfold offered
  cases machine.stepCase with
  | stopped stopped =>
    rw [step_of_stopped stopped, if_pos stopped]
    rfl
  | free going free =>
    have kept : machine.executed.2 = machine.memory := Cpu.memory_step_of_cost_eq_zero free
    have running : ¬ machine.board.cpu.stopped = true := ne_true_of_eq_false going
    rw [step_of_free going free, withParts_serial, kept, if_neg running, if_neg quiet]
    rfl
  | timed going timed =>
    have running : ¬ machine.board.cpu.stopped = true := ne_true_of_eq_false going
    rw [step_of_timed going timed, withParts_serial, polled, SerialLog.run_poll, if_neg running]
    split <;> rfl

theorem bytes_step (quiet : machine.Quiet) :
    machine.step.2.board.serial.bytes.toList =
      machine.board.serial.bytes.toList ++ machine.offered.toList := by
  rw [serial_step_of_quiet quiet]
  cases machine.offered with
  | none => exact (List.append_nil _).symm
  | some byte => exact Array.toList_push

theorem bytes_steps (quiet : machine.Quiet) (count : Nat) :
    (machine.steps count).2.board.serial.bytes.toList =
      machine.board.serial.bytes.toList ++ machine.offeredBy count := by
  induction count generalizing machine with
  | zero => exact (List.append_nil _).symm
  | succ count ih =>
    have later := ih (quiet_step quiet)
    rw [bytes_step quiet, List.append_assoc] at later
    exact later

/-! ## What is taken back -/

theorem bytes_act (machine : Machine) {action : Action} (kept : action ≠ .reset) :
    machine.board.serial.bytes.toList <+: (machine.act action).board.serial.bytes.toList := by
  have step (other : Machine)
      (before : machine.board.serial.bytes.toList <+: other.board.serial.bytes.toList) :
      machine.board.serial.bytes.toList <+: other.step.2.board.serial.bytes.toList := by
    rcases other.serial_step with same | ⟨-, byte, sent⟩
    · rwa [same]
    · rw [sent]
      exact before.trans (other.board.serial.prefix_append byte)
  have start := List.prefix_refl machine.board.serial.bytes.toList
  have untouched (other : Machine) (same : other.board.serial = machine.board.serial) :
      machine.board.serial.bytes.toList <+: other.board.serial.bytes.toList := same ▸ start
  cases action with
  | insert image => exact untouched _ (by rw [act, board_insert])
  | reset => exact absurd rfl kept
  | step => exact step machine start
  | runFrames frames maxCycles => exact invariant_runFrames step start frames maxCycles
  | runUntilSerial maxCycles => exact invariant_runUntilSerial step start maxCycles
  | stepCpu => exact untouched _ (by rw [act_stepCpu, withParts_serial])
  | poll =>
    rw [act_poll, withParts_serial, SerialLog.run_poll]
    split
    · exact machine.board.serial.prefix_append _
    · exact start
  | tick dots => exact untouched _ (by rw [act_tick, withParts_serial])
  | write write => exact untouched _ (by rw [act, board_written])

theorem bytes_replay {actions : List Action} (kept : .reset ∉ actions) (machine : Machine) :
    machine.board.serial.bytes.toList <+:
      (replay actions machine).board.serial.bytes.toList := by
  have each (action : Action) (member : action ∈ actions) (other : Machine)
      (before : machine.board.serial.bytes.toList <+: other.board.serial.bytes.toList) :
      machine.board.serial.bytes.toList <+: (other.act action).board.serial.bytes.toList :=
    before.trans (other.bytes_act fun same => kept (same ▸ member))
  exact invariant_replay each (List.prefix_refl _)

/-- From the moment it is switched on, a machine that no one else writes to has no transfer left
over at the end of any step, and its log holds the bytes that the processor's parts of the steps
have left to be sent: each of them once, in order, and no others. The next step adds nothing, or the
one byte that it offers, and then its own instruction has started the transfer. Whatever is done to
any machine short of a reset, the bytes in its log stay where they are. -/
theorem serial_capture {start : Machine} (fresh : SwitchedOn start) (count : Nat) :
    let after := (start.steps count).2
    load after.memory serialControl ≠ SerialLog.transferStart ∧
    after.board.serial.bytes.toList = start.offeredBy count ∧
    (after.step.2.board.serial.bytes = after.board.serial.bytes ∨
      ∃ byte, after.offered = some byte ∧
        after.step.2.board.serial.bytes = after.board.serial.bytes.push byte ∧
        after.board.cpu.StartsTransfer after.memory) ∧
    (∀ (machine : Machine) (actions : List Action), .reset ∉ actions →
      machine.board.serial.bytes.toList <+:
        (replay actions machine).board.serial.bytes.toList) := by
  intro after
  have quiet : after.Quiet := invariant_steps Quiet (fun _ => quiet_step) fresh.quiet count
  have captured := bytes_steps fresh.quiet count
  rw [fresh.bytes_eq] at captured
  refine ⟨quiet, captured, ?_, fun machine actions kept => bytes_replay kept machine⟩
  have next := serial_step_of_quiet quiet
  cases offers : after.offered with
  | none =>
    rw [next, offers]
    exact .inl rfl
  | some byte =>
    rw [next, offers]
    exact .inr ⟨byte, rfl, rfl, startsTransfer_of_offered quiet offers⟩

/-- A program that starts transfers without end. -/
theorem serial_capture_endless :
    let program : Cartridge.Image :=
      .replicate 0x100 0x00 ++ #[0x3E, 0x81, 0xE0, 0x02, 0x18, 0xFA]
    let start := ((Machine.initial {}).insert program).reset
    SwitchedOn start ∧
      (start.steps 1000000).2.board.serial.bytes.toList = start.offeredBy 1000000 := by
  intro program start
  have fresh : SwitchedOn start := .reset _
  obtain ⟨-, captured, -⟩ := serial_capture fresh 1000000
  exact ⟨fresh, captured⟩

end Machine

end DotMatrix
