import Mathlib.Algebra.Order.Floor.Div
import DotMatrix.Proofs.Bus.Agreement
import DotMatrix.Proofs.Machine.PowerCycle
import DotMatrix.Proofs.Machine.SerialCapture
import DotMatrix.Proofs.Video.Blanking

/-!
# Asleep until the vertical blank

A processor that honours halting, and waits for nothing but the vertical blank, sleeps through
everything else that the display requests. While it sleeps only the display goes on, a cycle's dots at
a time, so any number of such steps is one tick of all their dots; and that tick makes the request
once it has the dots that were left until the blank.

Results:
1. `steps_of_dormant`: the steps of a sleeping machine are one tick of its display.
2. `AwaitsBlank.waits_iff`, `blankRequested_waited`: what the sleep waits for, and when it comes.
3. `AwaitsBlank.wakes`: the step that wakes the processor executes what comes after the HALT.
4. `halt_wakes_at_blank`: all of it, for machines that were switched on.
-/

namespace DotMatrix

open Memory HardwareRegister

/-- The processor as it would be if it had not been halted. -/
def Cpu.awake (cpu : Cpu) : Cpu := { cpu with halted := false }

/-- A halted processor that fetches looks at the interrupts, and goes on as if it were awake. -/
theorem Cpu.Fetches.step_woken {μ : Type} [Memory μ] {cpu : Cpu} {memory : μ}
    {instruction : Instruction} (fetches : cpu.Fetches memory instruction)
    (halted : cpu.halted = true) (gated : cpu.haltGating = true) :
    cpu.step.run memory = cpu.awake.advance.run memory ∧
      cpu.step.accesses memory =
        [.read interruptRequests, .read interruptEnable] ++ cpu.awake.advance.accesses memory := by
  have awake : (cpu.halted && !cpu.haltGating) = false := by
    rw [halted, gated]
    rfl
  have woken : { cpu with halted := cpu.halted && !cpu.haltGating } = cpu.awake := by
    rw [awake, Cpu.awake]
  have polls : cpu.polls = [.read interruptRequests, .read interruptEnable] := by
    rw [Cpu.polls, halted, gated]
    rfl
  have stepped := fetches.step_eq
  rw [woken, polls] at stepped
  exact stepped

namespace Machine

variable {machine : Machine} {config : Config}

/-! ## Sleeping -/

/-- The display and the memory once so many cycles have passed for the display alone. -/
def shown (machine : Machine) (cycles : Nat) : (Bool × Ppu) × MemoryMap :=
  (machine.board.ppu.tick (cycles * machine.board.config.dotsPerCycle)).run machine.memory

/-- The machine after so many cycles in which nothing goes on but its display. -/
def waited (machine : Machine) (cycles : Nat) : Machine :=
  machine.withParts machine.board.cpu machine.board.serial (machine.shown cycles).1.2 cycles
    (machine.shown cycles).2

-- The parts are read off by these lemmas, and not by unfolding, which would run the display.
section

variable (machine : Machine) (cycles : Nat)

@[simp] theorem waited_cpu : (machine.waited cycles).board.cpu = machine.board.cpu := by
  rw [waited, withParts_cpu]

@[simp] theorem waited_serial : (machine.waited cycles).board.serial = machine.board.serial := by
  rw [waited, withParts_serial]

@[simp] theorem waited_ppu : (machine.waited cycles).board.ppu = (machine.shown cycles).1.2 := by
  rw [waited, withParts_ppu]

@[simp] theorem waited_config : (machine.waited cycles).board.config = machine.board.config := by
  rw [waited, withParts_config]

@[simp] theorem waited_memory : (machine.waited cycles).memory = (machine.shown cycles).2 := by
  rw [waited, withParts_memory]

/-- The display writes to its own registers, and no one else writes to any. -/
theorem load_waited {address : UInt16} (other : ¬ IsSignal address) :
    load (machine.waited cycles).memory address = load machine.memory address := by
  rw [waited_memory, shown, Ppu.load_tick_of_not_signal _ _ _ other]

end

theorem waited_zero (machine : Machine) : machine.waited 0 = machine := by
  have none : machine.shown 0 = ((false, machine.board.ppu), machine.memory) := by
    rw [shown, Nat.zero_mul, Ppu.run_tick_zero]
  rw [waited, none]
  rfl

/-- Two times pass like one as long as both. -/
theorem shown_waited (machine : Machine) (first second : Nat) :
    ((machine.waited first).shown second).1.2 = (machine.shown (first + second)).1.2 ∧
      ((machine.waited first).shown second).2 = (machine.shown (first + second)).2 := by
  have opened (total after : (Bool × Ppu) × MemoryMap) (completed : Bool)
      (same : total = ((completed, after.1.2), after.2)) :
      after.1.2 = total.1.2 ∧ after.2 = total.2 := by
    rw [same]
    exact ⟨rfl, rfl⟩
  have both := Ppu.run_tick_add machine.board.ppu (first * machine.board.config.dotsPerCycle)
    (second * machine.board.config.dotsPerCycle) machine.memory
  rw [← Nat.add_mul] at both
  rw [shown, waited_config, waited_ppu, waited_memory]
  exact opened _ _ _ both

theorem waited_add (machine : Machine) (first second : Nat) :
    (machine.waited first).waited second = machine.waited (first + second) := by
  obtain ⟨ppu, memory⟩ := machine.shown_waited first second
  rw [waited, waited_cpu, waited_serial, ppu, memory, waited, withParts_withParts, ← waited]

/-- The processor waits for an interrupt, and the serial port has nothing to send. -/
structure Dormant (machine : Machine) : Prop where
  going : machine.board.cpu.stopped = false
  waits : machine.board.cpu.Waits machine.memory
  quiet : machine.Quiet

theorem Dormant.step (dormant : machine.Dormant)
    (fits : machine.board.config.dotsPerCycle < UInt32.size) :
    machine.step = (1, machine.waited 1) := by
  have executed : machine.executed = ((1, machine.board.cpu), machine.memory) :=
    dormant.waits.run_step
  have timed : machine.executed.1.1 ≠ 0 := by
    rw [executed]
    exact Nat.one_ne_zero
  have unsent : load machine.executed.2 serialControl ≠ SerialLog.transferStart := by
    rw [executed]
    exact dormant.quiet
  have dots : Board.dots machine.board.config 1 = 1 * machine.board.config.dotsPerCycle :=
    Nat.min_eq_left (by rw [Nat.one_mul]; exact Nat.le_pred_of_lt fits)
  rw [step_of_unsent dormant.going timed unsent, executed, dots]
  rfl

theorem steps_of_dormant {count : Nat}
    (fits : machine.board.config.dotsPerCycle < UInt32.size)
    (dormant : ∀ made < count, (machine.waited made).Dormant) :
    machine.steps count = (List.replicate count 1, machine.waited count) := by
  induction count generalizing machine with
  | zero => rw [waited_zero]; rfl
  | succ count ih =>
    have first := dormant 0 count.succ_pos
    rw [waited_zero] at first
    have later : ∀ made < count, ((machine.waited 1).waited made).Dormant := fun made few => by
      rw [waited_add, Nat.add_comm]
      exact dormant (made + 1) (Nat.succ_lt_succ few)
    have fits' : (machine.waited 1).board.config.dotsPerCycle < UInt32.size := by
      rwa [waited_config]
    rw [steps, first.step fits, ih fits' later, waited_add, Nat.add_comm, List.replicate_succ]

/-! ## Waiting for the vertical blank -/

/-- The processor is halted, and the vertical blank is the only interrupt that can wake it. -/
structure AwaitsBlank (machine : Machine) : Prop where
  going : machine.board.cpu.stopped = false
  running : machine.board.cpu.locked = false
  halted : machine.board.cpu.halted = true
  gated : machine.board.cpu.haltGating = true
  enabled : load machine.memory interruptEnable &&& 0x1F = 0x01
  quiet : machine.Quiet

theorem blankRequested_waited (machine : Machine) (cycles : Nat) :
    load (machine.waited cycles).memory interruptRequests &&& 0x01 ≠ 0 ↔
      load machine.memory interruptRequests &&& 0x01 ≠ 0 ∨
        machine.board.ppu.dotsToBlank ≤ cycles * machine.board.config.dotsPerCycle := by
  rw [waited_memory, shown, Ppu.blankRequested_tick]

namespace AwaitsBlank

theorem waited (awaits : machine.AwaitsBlank) (cycles : Nat) :
    (machine.waited cycles).AwaitsBlank where
  going := by rw [waited_cpu, awaits.going]
  running := by rw [waited_cpu, awaits.running]
  halted := by rw [waited_cpu, awaits.halted]
  gated := by rw [waited_cpu, awaits.gated]
  enabled := by
    rw [load_waited _ _ (by unfold IsSignal; decide)]
    exact awaits.enabled
  quiet := by
    rw [Quiet, load_waited _ _ (by unfold IsSignal; decide)]
    exact awaits.quiet

theorem waits_iff (awaits : machine.AwaitsBlank) :
    machine.board.cpu.Waits machine.memory ↔
      load machine.memory interruptRequests &&& 0x01 = 0 := by
  have masked : load machine.memory interruptRequests &&& load machine.memory interruptEnable &&&
      0x1F = load machine.memory interruptRequests &&& 0x01 := by
    rw [UInt8.and_assoc, awaits.enabled]
  exact ⟨fun waits => masked ▸ waits.quiet,
    fun quiet => ⟨awaits.running, awaits.halted, awaits.gated, masked.trans quiet⟩⟩

/-- Once the blank is requested, the next step is one of the awake processor. -/
theorem wakes (awaits : machine.AwaitsBlank)
    (requested : load machine.memory interruptRequests &&& 0x01 ≠ 0) {cpu : Cpu}
    (same : machine.board.cpu = cpu) :
    machine.board.cpu.step.accesses machine.memory =
      [.read interruptRequests, .read interruptEnable] ++
        cpu.awake.advance.accesses machine.memory ∧
    machine.step.1 = (cpu.awake.advance.run machine.memory).1.1 ∧
    machine.step.2.board.cpu = (cpu.awake.advance.run machine.memory).1.2 := by
  subst same
  have fetches : machine.board.cpu.Fetches machine.memory _ :=
    ⟨awaits.running, fun waits => requested (awaits.waits_iff.1 waits), rfl⟩
  obtain ⟨executed, accesses⟩ := fetches.step_woken awaits.halted awaits.gated
  rw [cost_step awaits.going, cpu_step awaits.going, Machine.executed, executed]
  exact ⟨accesses, rfl, rfl⟩

end AwaitsBlank

/-! ## How long it takes -/

section

variable (passes : 0 < machine.board.config.dotsPerCycle)

include passes

/-- The cycles that it takes to get the dots until the blank are enough, and no fewer are. -/
theorem blankRequested_iff
    (unrequested : load machine.memory interruptRequests &&& 0x01 = 0) (made : Nat) :
    load (machine.waited made).memory interruptRequests &&& 0x01 ≠ 0 ↔
      machine.board.ppu.dotsToBlank ⌈/⌉ machine.board.config.dotsPerCycle ≤ made := by
  rw [blankRequested_waited, ceilDiv_le_iff_le_mul passes, Nat.mul_comm]
  exact or_iff_right (not_ne_iff.2 unrequested)

theorem AwaitsBlank.steps_eq_waited (awaits : machine.AwaitsBlank)
    (fits : machine.board.config.dotsPerCycle < UInt32.size)
    (unrequested : load machine.memory interruptRequests &&& 0x01 = 0) {made : Nat}
    (until_then : made ≤ machine.board.ppu.dotsToBlank ⌈/⌉ machine.board.config.dotsPerCycle) :
    machine.steps made = (List.replicate made 1, machine.waited made) := by
  refine steps_of_dormant fits fun earlier before => ?_
  have later := awaits.waited earlier
  have unreached := Nat.not_le_of_lt (Nat.lt_of_lt_of_le before until_then)
  refine ⟨later.going, later.waits_iff.2 ?_, later.quiet⟩
  exact not_ne_iff.1 fun requested => unreached ((blankRequested_iff passes unrequested _).1 requested)

end

/-! ## A program that sleeps -/

/-- Code that enables the interrupt of the vertical blank, withdraws its request by storing the stack
pointer over it, and halts. -/
def sleeperCode : Cartridge.Image := #[0xE0, 0xFF, 0x08, 0x0F, 0xFF, 0x76]

/-- The code where the processor begins. -/
def sleeper : Cartridge.Image := .replicate 0x100 0x00 ++ sleeperCode

theorem getD_sleeper (offset : Nat) :
    sleeper.getD (0x100 + offset) 0 = sleeperCode.getD offset 0 := by
  simp [sleeper, Array.getD_eq_getD_getElem?, Array.getElem?_append_right]

/-- The processor on its way through the program. -/
def sleeperAt (pc : UInt16) : Cpu :=
  { Cpu.postBoot with registers := { Registers.postBoot with pc }, haltGating := true }

/-- A machine with the program that has run for some dots of its first frame. -/
structure Prepares (machine : Machine) (cpu : Cpu) (dots : Nat) : Prop where
  maps : machine.Maps sleeper
  cpu : machine.board.cpu = cpu
  rate : machine.board.config.dotsPerCycle = 4
  quiet : machine.Quiet
  clock : machine.board.ppu.clock = dots

namespace Prepares

variable {cpu cpu' : Cpu} {dots cost : Nat} {memory : MemoryMap}

theorem step (prepares : machine.Prepares cpu dots) (going : cpu.stopped = false)
    (executed : machine.executed = ((cost + 1, cpu'), memory))
    (unsent : load memory serialControl ≠ SerialLog.transferStart)
    (early : dots + 4 * (cost + 1) < 65664) :
    machine.step.2.Prepares cpu' (dots + 4 * (cost + 1)) ∧
    (∀ address, ¬ IsSignal address → load machine.step.2.memory address = load memory address) ∧
    (load memory interruptRequests &&& 0x01 = 0 →
      load machine.step.2.memory interruptRequests &&& 0x01 = 0) := by
  have given : Board.dots machine.board.config machine.executed.1.1 = 4 * (cost + 1) := by
    rw [executed, Board.dots, prepares.rate, Nat.mul_comm]
    refine Nat.min_eq_left ?_
    simp only [UInt32.size]
    omega
  have stepped := step_of_unsent (prepares.cpu ▸ going) (executed ▸ cost.succ_ne_zero)
    (executed ▸ unsent)
  rw [given, executed] at stepped
  have apart : machine.board.ppu.dotsToBlank = 65664 - dots := by
    rw [← prepares.clock]
    exact Ppu.dotsToBlank_of_clock_lt (by rw [prepares.clock]; omega)
  refine ⟨⟨prepares.maps.step, ?_, ?_, quiet_step prepares.quiet, ?_⟩, ?_, ?_⟩
  · rw [stepped, withParts_cpu]
  · rw [config_step, prepares.rate]
  · rw [stepped, withParts_ppu, Ppu.clock_tick, prepares.clock]
  · intro address other
    rw [stepped, withParts_memory, Ppu.load_tick_of_not_signal _ _ _ other]
  · intro clear
    rw [stepped, withParts_memory, ← not_ne_iff, Ppu.blankRequested_tick, apart]
    exact not_or.2 ⟨not_ne_iff.2 clear, by omega⟩

theorem load_eq (prepares : machine.Prepares cpu dots) (address : UInt16) (low : address ≤ 0x7FFF)
    (offset : Nat) (place : address.toNat = 0x100 + offset) :
    load machine.memory address = sleeperCode.getD offset 0 := by
  rw [prepares.maps.rom address low, place, getD_sleeper]

theorem executed_eq {pc : UInt16} (prepares : machine.Prepares (sleeperAt pc) dots) {opcode : UInt8}
    (stands : load machine.memory pc = opcode) (instruction : Instruction)
    (decoded : Instruction.decode opcode = instruction) (valid : instruction ≠ .unused) :
    let after := ((sleeperAt (pc + 1)).execute instruction).run machine.memory
    machine.executed = ((instruction.cycles + after.1.1, after.1.2), after.2) := by
  have fetches : (sleeperAt pc).Fetches machine.memory instruction :=
    Cpu.fetches_of_opcode rfl rfl stands decoded
  rw [executed, prepares.cpu, fetches.run_step valid]
  rfl

theorem enables (prepares : machine.Prepares (sleeperAt 0x0100) dots)
    (early : dots + 12 < 65664) :
    machine.step.2.Prepares (sleeperAt 0x0102) (dots + 12) ∧
      load machine.step.2.memory interruptEnable = 0x01 := by
  have opcode : load machine.memory 0x0100 = 0xE0 := prepares.load_eq 0x0100 (by decide) 0 rfl
  have operand : load machine.memory 0x0101 = 0xFF := prepares.load_eq 0x0101 (by decide) 1 rfl
  have executed : machine.executed =
      ((3, sleeperAt 0x0102), store machine.memory interruptEnable 0x01) := by
    rw [prepares.executed_eq opcode (.storeA .high) (by decide) (by decide)]
    change ((3, sleeperAt 0x0102),
      store machine.memory (highPage (load machine.memory 0x0101)) 0x01) = _
    rw [operand]
    rfl
  have unsent : load (store machine.memory interruptEnable 0x01) serialControl ≠
      SerialLog.transferStart := by
    rw [PlainMemory.load_store_hardware (by decide), if_neg (by decide)]
    exact prepares.quiet
  obtain ⟨later, others, -⟩ := prepares.step rfl executed unsent early
  refine ⟨later, ?_⟩
  rw [others _ (by unfold IsSignal; decide), PlainMemory.load_store_hardware (by decide),
    if_pos rfl]

theorem withdraws (prepares : machine.Prepares (sleeperAt 0x0102) dots)
    (early : dots + 20 < 65664) :
    machine.step.2.Prepares (sleeperAt 0x0105) (dots + 20) ∧
      load machine.step.2.memory interruptEnable = load machine.memory interruptEnable ∧
      load machine.step.2.memory interruptRequests &&& 0x01 = 0 := by
  have opcode : load machine.memory 0x0102 = 0x08 := prepares.load_eq 0x0102 (by decide) 2 rfl
  have low : load machine.memory 0x0103 = 0x0F := prepares.load_eq 0x0103 (by decide) 3 rfl
  have high : load machine.memory 0x0104 = 0xFF := prepares.load_eq 0x0104 (by decide) 4 rfl
  have target : Word.join (load machine.memory 0x0104) (load machine.memory 0x0103) =
      interruptRequests := by
    rw [low, high]
    rfl
  have executed : machine.executed = ((5, sleeperAt 0x0105),
      store (store machine.memory interruptRequests 0xFE) (interruptRequests + 1) 0xFF) := by
    rw [prepares.executed_eq opcode .storeSp (by decide) (by decide), ← target]
    rfl
  have stored (address : UInt16) (other : address ≠ interruptRequests + 1) :
      load (store (store machine.memory interruptRequests 0xFE) (interruptRequests + 1) 0xFF)
        address = if address = interruptRequests then 0xFE else load machine.memory address := by
    rw [PlainMemory.load_store_hardware (by decide), if_neg other,
      PlainMemory.load_store_hardware (by decide)]
  obtain ⟨later, others, clear⟩ := prepares.step rfl executed
    (by rw [stored _ (by decide), if_neg (by decide)]; exact prepares.quiet) early
  refine ⟨later, ?_, clear (by rw [stored _ (by decide), if_pos rfl]; decide)⟩
  rw [others _ (by unfold IsSignal; decide), stored _ (by decide), if_neg (by decide)]

theorem halts (prepares : machine.Prepares (sleeperAt 0x0105) dots) (early : dots + 4 < 65664) :
    machine.step.2.Prepares { sleeperAt 0x0106 with halted := true } (dots + 4) ∧
      load machine.step.2.memory interruptEnable = load machine.memory interruptEnable ∧
      (load machine.memory interruptRequests &&& 0x01 = 0 →
        load machine.step.2.memory interruptRequests &&& 0x01 = 0) := by
  have opcode : load machine.memory 0x0105 = 0x76 := prepares.load_eq 0x0105 (by decide) 5 rfl
  have executed : machine.executed =
      ((1, { sleeperAt 0x0106 with halted := true }), machine.memory) := by
    rw [prepares.executed_eq opcode .halt (by decide) (by decide)]
    rfl
  obtain ⟨later, others, clear⟩ := prepares.step rfl executed prepares.quiet early
  exact ⟨later, others _ (by unfold IsSignal; decide), clear⟩

theorem asleep (first : machine.Prepares (sleeperAt 0x0100) 0) :
    let asleep := (machine.steps 3).2
    asleep.Prepares { sleeperAt 0x0106 with halted := true } 36 ∧
      load asleep.memory interruptEnable = 0x01 ∧
      load asleep.memory interruptRequests &&& 0x01 = 0 := by
  obtain ⟨second, enabled⟩ := first.enables (by decide)
  obtain ⟨third, kept, clear⟩ := second.withdraws (by decide)
  obtain ⟨last, kept', clear'⟩ := third.halts (by decide)
  exact ⟨last, (kept'.trans kept).trans enabled, clear' clear⟩

end Prepares

/-! ## The wake-up -/

/-- A machine that was switched on honours halting, its processor is halted, and the vertical blank is
the only interrupt that can wake it and is not requested. Then it sleeps for the cycles that it takes
to get the dots until the blank begins. Each of these steps takes one cycle and leaves the processor,
the serial port and all memory but the display's registers as they were; the last of them has the
interrupt requested, and none before it. The step after them looks at the interrupts and then does
what the processor would do at this program counter if it had not been halted. -/
theorem halt_wakes_at_blank {start : Machine} (fresh : SwitchedOn start)
    (configured : start.board.Configured config) (enforced : config.enforceHalt = true)
    (passes : 0 < config.dotsPerCycle) (fits : config.dotsPerCycle < UInt32.size) (count : Nat)
    (running : (start.steps count).2.board.isRunning = true)
    (halted : (start.steps count).2.board.cpu.halted = true)
    (enabled : load (start.steps count).2.memory interruptEnable &&& 0x1F = 0x01)
    (unrequested : load (start.steps count).2.memory interruptRequests &&& 0x01 = 0) :
    let machine := (start.steps count).2
    let dots := machine.board.ppu.dotsToBlank
    let cycles := dots ⌈/⌉ config.dotsPerCycle
    IsLeast {dots | 0 < dots ∧
      ((machine.board.ppu.tick dots).run machine.memory).1.2.BeginsBlank} dots ∧
    (machine.steps cycles).1 = List.replicate cycles 1 ∧
    (∀ made ≤ cycles,
      let asleep := (machine.steps made).2
      asleep.board.cpu = machine.board.cpu ∧
      asleep.board.serial = machine.board.serial ∧
      AgreeOutside IsSignal machine.memory asleep.memory ∧
      (load asleep.memory interruptRequests &&& 0x01 ≠ 0 ↔ made = cycles)) ∧
    let last := (machine.steps cycles).2
    let awake := machine.board.cpu.awake
    last.board.cpu.step.accesses last.memory =
      [.read interruptRequests, .read interruptEnable] ++ awake.advance.accesses last.memory ∧
    last.step.1 = (awake.advance.run last.memory).1.1 ∧
    last.step.2.board.cpu = (awake.advance.run last.memory).1.2 := by
  intro machine dots cycles
  have kept : machine.board.Configured config :=
    invariant_steps (·.board.Configured config) (fun _ => configured_step) configured count
  have awaits : machine.AwaitsBlank := by
    have quiet : machine.Quiet :=
      invariant_steps Quiet (fun _ => quiet_step) fresh.quiet count
    obtain ⟨going, unlocked⟩ := (Bool.and_eq_true _ _).mp running
    exact ⟨(Bool.not_eq_true' _).mp going, (Bool.not_eq_true' _).mp unlocked, halted,
      kept.haltGating.trans enforced, enabled, quiet⟩
  have rate := kept.settings
  subst rate
  have asleep (made : Nat) (until_then : made ≤ cycles) :
      machine.steps made = (List.replicate made 1, machine.waited made) :=
    awaits.steps_eq_waited passes fits unrequested until_then
  have requested_iff (made : Nat) :
      load (machine.waited made).memory interruptRequests &&& 0x01 ≠ 0 ↔ cycles ≤ made :=
    blankRequested_iff passes unrequested made
  refine ⟨machine.board.ppu.isLeast_dotsToBlank machine.memory, ?costs, ?kept, ?woken⟩
  case costs => rw [asleep cycles (Nat.le_refl _)]
  case kept =>
    intro made until_then
    rw [asleep made until_then]
    refine ⟨machine.waited_cpu made, machine.waited_serial made,
      fun address other => (machine.load_waited made other).symm, ?_⟩
    rw [requested_iff]
    exact ⟨Nat.le_antisymm until_then, fun last => Nat.le_of_eq last.symm⟩
  case woken =>
    have last : (machine.steps cycles).2 = machine.waited cycles := by
      rw [asleep cycles (Nat.le_refl _)]
    rw [last]
    exact (awaits.waited cycles).wakes ((requested_iff cycles).2 (Nat.le_refl _))
      (machine.waited_cpu cycles)

/-- The machine sleeps through 16407 cycles, and the display requests the interrupt in the last. -/
theorem halt_wakes_at_blank_first_frame :
    let config : Config := { dotsPerCycle := 4, enforceHalt := true }
    let start := factoryNew config (some sleeper)
    let machine := (start.steps 3).2
    SwitchedOn start ∧ start.board.Configured config ∧ config.enforceHalt = true ∧
      0 < config.dotsPerCycle ∧ config.dotsPerCycle < UInt32.size ∧
      machine.board.isRunning = true ∧ machine.board.cpu.halted = true ∧
      load machine.memory interruptEnable &&& 0x1F = 0x01 ∧
      load machine.memory interruptRequests &&& 0x01 = 0 ∧
      (machine.steps 16407).1 = List.replicate 16407 1 ∧
      load (machine.steps 16406).2.memory interruptRequests &&& 0x01 = 0 ∧
      load (machine.steps 16407).2.memory interruptRequests &&& 0x01 ≠ 0 := by
  intro config start
  have fresh : SwitchedOn start := .insert sleeper (.initial _)
  have same : start.board = .initial config := board_insert _ sleeper
  have configured : start.board.Configured config := by
    rw [same]
    exact ⟨rfl, rfl, rfl⟩
  have first : start.Prepares (sleeperAt 0x0100) 0 := by
    refine ⟨.insert _ _, ?_, ?_, fresh.quiet, ?_⟩
    · rw [same]
      rfl
    · rw [same]
      rfl
    · rw [fresh.ppu_eq]
      rfl
  -- From here on it does not matter how the machine was built.
  clear_value start
  dsimp only
  obtain ⟨prepares, enabled, clear⟩ := first.asleep
  have running : (start.steps 3).2.board.isRunning = true := by
    rw [Board.isRunning, prepares.cpu]
    rfl
  have halted : (start.steps 3).2.board.cpu.halted = true := by rw [prepares.cpu]
  have masked : load (start.steps 3).2.memory interruptEnable &&& 0x1F = 0x01 := by
    rw [enabled]
    rfl
  have early : (start.steps 3).2.board.ppu.clock < 65664 := by
    rw [prepares.clock]
    decide
  have far : (start.steps 3).2.board.ppu.dotsToBlank ⌈/⌉ config.dotsPerCycle = 16407 := by
    rw [Ppu.dotsToBlank_of_clock_lt early, prepares.clock, Nat.ceilDiv_eq_add_pred_div]
    decide
  obtain ⟨-, costs, asleep, -⟩ := halt_wakes_at_blank fresh configured rfl (by decide) (by decide) 3
    running halted masked clear
  rw [far] at costs asleep
  obtain ⟨-, -, -, before⟩ := asleep 16406 (by decide)
  obtain ⟨-, -, -, last⟩ := asleep 16407 (Nat.le_refl _)
  have still := not_ne_iff.1 fun requested => absurd (before.1 requested) (by decide)
  exact ⟨fresh, configured, rfl, by decide, by decide, running, halted, masked, clear, costs, still,
    last.2 rfl⟩

end Machine

end DotMatrix
