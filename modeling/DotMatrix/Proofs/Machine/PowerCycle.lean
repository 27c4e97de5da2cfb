import DotMatrix.Proofs.Cpu.Footprint
import DotMatrix.Proofs.Machine.Rom
import DotMatrix.Proofs.Machine.SerialOutput
import DotMatrix.Proofs.Video.Signals

/-!
# Switching off and on

A reset builds each part of the machine anew, and each part has its own exceptions: the processor
keeps its halt gating, the serial port its echo, the slot its cartridge. What is kept is what the
configuration says and what was last inserted, so nothing of the machine's past gets through.

Results:
1. `configured_act`: no action changes a setting.
2. `cartridge_replay`: the slot holds what a history inserted last.
3. `reset_eq`: what a reset leaves, in terms of the settings and the slot.
4. `power_cycle`: a reset machine is a new one with the same cartridge.
-/

namespace DotMatrix

open Memory

/-! ## Settings -/

/-- Halt gating is a setting: no step changes it. -/
theorem Cpu.haltGating_step {μ : Type} [Memory μ] (cpu : Cpu) (memory : μ) :
    (cpu.step.run memory).1.2.haltGating = cpu.haltGating := by
  cases cpu.phase memory with
  | dead locked => rw [run_step_of_locked memory locked]
  | waiting waits => rw [waits.run_step]
  | lockingUp fetches => rw [fetches.run_step_unused, fetched]
  | executing instruction fetches valid => exact (fetches.changesOnly_step valid).haltGating

theorem SerialLog.echo_poll {μ : Type} [Memory μ] (log : SerialLog) (memory : μ) :
    (log.poll.run memory).1.2.echo = log.echo := by
  rw [SerialLog.run_poll]
  split <;> rfl

/-- The parts of a board are set up as a configuration says. -/
structure Board.Configured (config : Config) (board : Board) : Prop where
  settings : board.config = config
  haltGating : board.cpu.haltGating = config.enforceHalt
  echo : board.serial.echo = config.serialEcho

namespace Machine

theorem board_reset (machine : Machine) : machine.reset.board = machine.board.reset := rfl

variable {config : Config} {machine : Machine}

theorem configured_withParts (configured : machine.board.Configured config) {cpu : Cpu}
    {serial : SerialLog} (gating : cpu.haltGating = machine.board.cpu.haltGating)
    (echo : serial.echo = machine.board.serial.echo) (ppu : Ppu) (cycles : Nat)
    (memory : MemoryMap) :
    (machine.withParts cpu serial ppu cycles memory).board.Configured config := by
  constructor
  · rw [withParts_config, configured.settings]
  · rw [withParts_cpu, gating, configured.haltGating]
  · rw [withParts_serial, echo, configured.echo]

theorem configured_step (configured : machine.board.Configured config) :
    machine.step.2.board.Configured config := by
  have gated := machine.board.cpu.haltGating_step machine.memory
  cases machine.stepCase with
  | stopped stopped =>
    rw [step_of_stopped stopped]
    exact configured
  | free going free =>
    rw [step_of_free going free]
    exact configured_withParts configured gated rfl _ _ _
  | timed going timed =>
    rw [step_of_timed going timed]
    exact configured_withParts configured gated (machine.board.serial.echo_poll _) _ _ _

theorem configured_act (configured : machine.board.Configured config) (action : Action) :
    (machine.act action).board.Configured config := by
  have step (other : Machine) (configured : other.board.Configured config) :
      other.step.2.board.Configured config := configured_step configured
  have gated := machine.board.cpu.haltGating_step machine.memory
  cases action with
  | insert image =>
    rw [act, board_insert]
    exact configured
  | reset =>
    rw [act, board_reset]
    exact ⟨configured.settings, configured.haltGating, configured.echo⟩
  | step => exact step machine configured
  | runFrames frames maxCycles =>
    exact invariant_runFrames step configured frames maxCycles
  | runUntilSerial maxCycles =>
    exact invariant_runUntilSerial step configured maxCycles
  | stepCpu =>
    rw [act_stepCpu]
    exact configured_withParts configured gated rfl _ _ _
  | poll =>
    rw [act_poll]
    exact configured_withParts configured rfl (machine.board.serial.echo_poll _) _ _ _
  | tick dots =>
    rw [act_tick]
    exact configured_withParts configured rfl rfl _ _ _
  | write write =>
    rw [act, board_written]
    exact configured

/-! ## The slot -/

/-- The cartridge that a history inserts last, if it inserts one. -/
def lastInserted (actions : List Action) : Option Cartridge.Image :=
  actions.reverse.findSome? Action.image?

theorem cartridge_act (machine : Machine) (action : Action) :
    (machine.act action).cartridge = action.image?.getD machine.cartridge := by
  have step (other : Machine) (same : other.cartridge = machine.cartridge) :
      other.step.2.cartridge = machine.cartridge := same
  cases action with
  | runFrames frames maxCycles => exact invariant_runFrames step rfl frames maxCycles
  | runUntilSerial maxCycles => exact invariant_runUntilSerial step rfl maxCycles
  | write write =>
    rw [act, cartridge_written]
    rfl
  | stepCpu =>
    rw [act_stepCpu, withParts_cartridge]
    rfl
  | poll =>
    rw [act_poll, withParts_cartridge]
    rfl
  | tick dots =>
    rw [act_tick, withParts_cartridge]
    rfl
  | insert | reset | step => rfl

theorem cartridge_replay (actions : List Action) (machine : Machine) :
    (replay actions machine).cartridge = (lastInserted actions).getD machine.cartridge := by
  induction actions generalizing machine with
  | nil => rfl
  | cons action later ih =>
    rw [replay_cons, ih, cartridge_act, lastInserted, lastInserted, List.reverse_cons,
      List.findSome?_append]
    -- What was inserted later counts; only without that, it is what this action inserts.
    cases later.reverse.findSome? Action.image? with
    | none => cases inserted : action.image? <;> simp [inserted]
    | some image => rfl

/-! ## A reset -/

/-- Setting the mode in the display's status and inserting a cartridge have nothing to do with each
other. -/
theorem synchronised_insert (memory : MemoryMap) (image : Cartridge.Image) :
    synchronised (memory.insert image) = (synchronised memory).insert image := by
  refine MemoryMap.eq_of_load_eq fun address => ?_
  by_cases rom : address ≤ 0x7FFF
  · have kept := (memory.insert image).load_run_of_not_writable (Bus.setMode Beam.start.mode.bits)
      (MemoryMap.not_writable_rom rom)
    rw [MemoryMap.load_insert _ _ rom] at kept ⊢
    exact kept
  · rw [MemoryMap.load_insert_of_not_rom _ _ rom, synchronised, synchronised, load_setMode,
      load_setMode, MemoryMap.load_insert_of_not_rom _ _ rom,
      MemoryMap.load_insert_of_not_rom _ _ (by decide)]

/-- A new machine, with a cartridge in the slot or without one. -/
def factoryNew (config : Config) : Option Cartridge.Image → Machine
  | none => .initial config
  | some image => (Machine.initial config).insert image

/-- A cartridge without bytes is none. -/
theorem insert_empty (config : Config) : (Machine.initial config).insert #[] = .initial config := by
  have memory : (synchronised .initial).insert #[] = synchronised .initial := by
    rw [← synchronised_insert, MemoryMap.insert_empty]
  rw [insert, initial, memory]

theorem reset_eq (configured : machine.board.Configured config) :
    machine.reset = (Machine.initial config).insert machine.cartridge := by
  obtain ⟨same, gating, echo⟩ := configured
  have board : machine.board.reset = .initial config := by
    rw [Board.reset, Board.initial, Cpu.reset, SerialLog.clear, same, gating, echo]
    rfl
  rw [reset, board, synchronised_insert]
  rfl

/-- Whatever was done to a machine, switched off and on again it is in every part the machine that
it was when it was new, with the cartridge that was inserted last, or with none if none was. So it
runs and reports like the new one, and switching it off and on once more changes nothing. -/
theorem power_cycle (config : Config) (actions : List Action) :
    let cycled := (replay actions (.initial config)).reset
    let fresh := factoryNew config (lastInserted actions)
    cycled = fresh ∧
    (∀ count, cycled.steps count = fresh.steps count) ∧
    (∀ log count, cycled.stepLog log count = fresh.stepLog log count) ∧
    (∀ later, replay later cycled = replay later fresh) ∧
    cycled.reset = cycled := by
  intro cycled fresh
  have new : (Machine.initial config).board.Configured config := ⟨rfl, rfl, rfl⟩
  have kept (machine : Machine) (action : Action) (configured : machine.board.Configured config) :
      (machine.act action).board.Configured config := configured_act configured action
  have configured : (replay actions (.initial config)).board.Configured config :=
    invariant_replay (fun action _ machine => kept machine action) new
  have slot : (replay actions (.initial config)).cartridge = (lastInserted actions).getD #[] :=
    cartridge_replay actions (.initial config)
  have built : cycled = (Machine.initial config).insert _ := reset_eq configured
  have same : cycled = fresh := by
    rw [built, slot]
    cases inserted : lastInserted actions with
    | none =>
      have empty : fresh = .initial config := congrArg (factoryNew config) inserted
      rw [empty]
      exact insert_empty config
    | some image => exact (congrArg (factoryNew config) inserted).symm
  have again : cycled.reset = cycled :=
    (reset_eq (configured_act configured .reset)).trans built.symm
  refine ⟨same, fun count => ?_, fun log count => ?_, fun later => ?_, again⟩
  · rw [same]
  · rw [same]
  · rw [same]

end Machine

end DotMatrix
