import DotMatrix.Proofs.Bounded.Display
import DotMatrix.Proofs.Bounded.Memory
import DotMatrix.Proofs.Bounded.Processor
import DotMatrix.Proofs.Machine.History

/-!
# The machine without faults

The whole machine as its counters hold it: processor, serial port and display one after the other,
with every calculation looked after, and the cycles counted in 64 bits. A step of it, or the work of
one of its parts alone, has no fault, whatever the program is, however many dots pass in a cycle and
wherever the machine stands, as long as the counters of cycles and frames have room for what is
added to them. So a machine goes on as if its counters had no limits.

Results:
1. `BoundedBoard.outcome_step`: a step.
2. `BoundedMachine.act_eq`: anything that is done to a machine.
3. `BoundedMachine.run_eq_replay`: any number of things.
-/

namespace DotMatrix

open CheckedTransaction

/-! ## The board -/

/-- A board as its counters hold it. -/
structure BoundedBoard where
  cpu : Cpu
  display : BoundedDisplay
  /-- The dots that the display has spent in its mode. -/
  dots : UInt32
  serial : SerialLog
  config : Config
  /-- The processor cycles that have passed. -/
  cycles : UInt64

namespace BoundedBoard

/-- The counters of a board. -/
def ofBoard (board : Board) : BoundedBoard where
  cpu := board.cpu
  display := .ofRaster board.ppu.toRaster
  dots := .ofNat board.ppu.dots
  serial := board.serial
  config := board.config
  cycles := .ofNat board.cycles

section

variable (board : Board)

theorem cpu_ofBoard : (ofBoard board).cpu = board.cpu := rfl

theorem serial_ofBoard : (ofBoard board).serial = board.serial := rfl

theorem config_ofBoard : (ofBoard board).config = board.config := rfl

theorem cycles_ofBoard : (ofBoard board).cycles = .ofNat board.cycles := rfl

end

/-- Back to the state after the boot program. -/
def reset (board : BoundedBoard) : BoundedBoard where
  cpu := board.cpu.reset
  display := .ofRaster .initial
  dots := 0
  serial := board.serial.clear
  config := board.config
  cycles := 0

theorem reset_ofBoard (board : Board) : (ofBoard board).reset = ofBoard board.reset := rfl

/-- The dots that pass during a number of cycles. The product stops at the greatest number. -/
def dotsOf (config : Config) (cost : UInt32) : UInt32 :=
  .ofNat (min (cost.toNat * (UInt32.ofNat config.dotsPerCycle).toNat) (UInt32.size - 1))

/-- Lets the processor alone execute an instruction. -/
def stepCpu (board : BoundedBoard) : CheckedTransaction (UInt32 × BoundedBoard) := do
  let (cost, cpu) ← board.cpu.stepChecked
  return (cost, { board with cpu })

/-- Looks at the serial port alone, where nothing is calculated. -/
def poll (board : BoundedBoard) : CheckedTransaction BoundedBoard := do
  let (_, serial) ← board.serial.poll
  return { board with serial }

/-- Lets dots pass for the display alone. -/
def tick (dots : UInt32) (board : BoundedBoard) : CheckedTransaction BoundedBoard := do
  let (_, dots, display) ← board.display.tick board.dots dots
  return { board with dots, display }

/-- Executes one instruction and lets its time pass. Returns its cycles. -/
def step (board : BoundedBoard) : CheckedTransaction (UInt32 × BoundedBoard) :=
  if board.cpu.stopped then
    return (0, board)
  else do
    let (cost, board) ← board.stepCpu
    if cost = 0 then
      return (0, board)
    else
      let board ← board.poll
      let board ← board.tick (dotsOf board.config cost)
      let cycles ← Checked.add board.cycles cost.toUInt64
      return (cost, { board with cycles })

/-! What a part of the board comes to is taken apart before it is put back: comparing the boards as
they are would run the part. -/

section

variable {board : Board} {memory after : MemoryMap}

theorem run_stepCpu {cost : Nat} {cpu : Cpu}
    (part : board.cpu.step.run memory = ((cost, cpu), after)) :
    board.stepCpu.run memory = ((cost, { board with cpu }), after) := by
  rw [Board.stepCpu, Transaction.run_bind, part, Transaction.run_pure]

theorem run_poll {sent : Option UInt8} {serial : SerialLog}
    (part : board.serial.poll.run memory = ((sent, serial), after)) :
    board.poll.run memory = ((sent, { board with serial }), after) := by
  rw [Board.poll, Transaction.run_bind, part, Transaction.run_pure]

theorem run_tick {dots : Nat} {completed : Bool} {ppu : Ppu}
    (part : (board.ppu.tick dots).run memory = ((completed, ppu), after)) :
    (board.tick dots).run memory = ((completed, { board with ppu }), after) := by
  rw [Board.tick, Transaction.run_bind, part, Transaction.run_pure]

theorem outcome_stepCpu (board : Board) (memory : MemoryMap) :
    let after := board.stepCpu.run memory
    (ofBoard board).stepCpu.outcome memory =
      .ok ((.ofNat after.1.1, ofBoard after.1.2), after.2) := by
  rcases part : board.cpu.step.run memory with ⟨⟨cost, cpu⟩, after⟩
  rw [run_stepCpu part, stepCpu, cpu_ofBoard, outcome_bind, Cpu.outcome_stepChecked, part]
  rfl

theorem outcome_poll (board : Board) (memory : MemoryMap) :
    let after := board.poll.run memory
    (ofBoard board).poll.outcome memory = .ok (ofBoard after.1.2, after.2) := by
  rcases part : board.serial.poll.run memory with ⟨⟨sent, serial⟩, after⟩
  rw [run_poll part, poll, serial_ofBoard, outcome_bind_lift, part]
  rfl

theorem outcome_tick (board : Board) (memory : MemoryMap) (dots : UInt32)
    (frames : board.ppu.frames < UInt64.size - UInt32.size) :
    let after := (board.tick dots.toNat).run memory
    ((ofBoard board).tick dots).outcome memory = .ok (ofBoard after.1.2, after.2) := by
  have ticks := BoundedDisplay.outcome_tick board.ppu dots memory frames
  rcases part : (board.ppu.tick dots.toNat).run memory with ⟨⟨completed, ppu⟩, after⟩
  rw [part] at ticks
  rw [run_tick part, tick, ofBoard, outcome_bind, ticks]
  rfl

end

theorem toNat_dotsOf {cost : Nat} {config : Config} (small : cost < UInt32.size)
    (multiplier : config.dotsPerCycle < UInt32.size) :
    (dotsOf config (.ofNat cost)).toNat = Board.dots config cost := by
  rw [dotsOf, UInt32.toNat_ofNat_of_lt' small, UInt32.toNat_ofNat_of_lt' multiplier]
  exact UInt32.toNat_ofNat_of_lt' (Nat.lt_of_le_of_lt (Nat.min_le_right _ _) (by decide))

/-- A step has no fault, whatever the memory holds. -/
theorem outcome_step (board : Board) (memory : MemoryMap)
    (multiplier : board.config.dotsPerCycle < UInt32.size)
    (cycles : board.cycles < UInt64.size - UInt32.size)
    (frames : board.ppu.frames < UInt64.size - UInt32.size) :
    let after := board.step.run memory
    (ofBoard board).step.outcome memory = .ok ((.ofNat after.1.1, ofBoard after.1.2), after.2) := by
  dsimp only
  unfold step Board.step
  by_cases stopped : board.cpu.stopped
  · rw [cpu_ofBoard, if_pos stopped, if_pos stopped]
    rfl
  · have executes := outcome_stepCpu board memory
    have small : (board.cpu.step.run memory).1.1 ≤ 6 := Cpu.cost_step_le _ _
    rcases cpuPart : board.cpu.step.run memory with ⟨⟨cost, cpu⟩, afterCpu⟩
    rw [cpuPart] at small
    rw [run_stepCpu cpuPart] at executes
    rw [cpu_ofBoard, if_neg stopped, if_neg stopped, outcome_bind, executes, Transaction.run_bind,
      run_stepCpu cpuPart, Checked.ok_bind]
    dsimp only at small ⊢
    by_cases free : cost = 0
    · rw [free]
      rfl
    · have small : cost < UInt32.size := Nat.lt_of_le_of_lt small (by decide)
      have timed : UInt32.ofNat cost ≠ 0 := fun same =>
        free ((UInt32.toNat_ofNat_of_lt' small).symm.trans (congrArg UInt32.toNat same))
      have polls := outcome_poll { board with cpu } afterCpu
      rcases serialPart : board.serial.poll.run afterCpu with ⟨⟨sent, serial⟩, afterSerial⟩
      rw [run_poll (by exact serialPart)] at polls
      have ticks := outcome_tick { board with cpu, serial } afterSerial
        (dotsOf board.config (.ofNat cost)) frames
      rw [toNat_dotsOf small multiplier] at ticks
      rcases displayPart : (board.ppu.tick (Board.dots board.config cost)).run afterSerial
        with ⟨⟨completed, ppu⟩, afterDisplay⟩
      rw [run_tick (by exact displayPart)] at ticks
      rw [if_neg timed, if_neg free, outcome_bind, polls, Transaction.run_bind,
        run_poll (by exact serialPart), Checked.ok_bind]
      dsimp only
      rw [outcome_bind, config_ofBoard, ticks, Transaction.run_bind,
        run_tick (by exact displayPart), Checked.ok_bind]
      dsimp only
      rw [cycles_ofBoard, outcome_bind_check (Checked.add_widened cycles small)]
      rfl

end BoundedBoard

/-! ## The machine -/

/-- A machine as its counters hold it. -/
structure BoundedMachine where
  board : BoundedBoard
  memory : MemoryMap
  /-- The cartridge image that was last inserted. -/
  cartridge : Cartridge.Image

/-- What a machine or one of its parts can be made to do. -/
inductive Job where
  | insert (image : Cartridge.Image)
  | reset
  /-- Bytes are written to the memory from outside. -/
  | write (bytes : MemoryMap.Write)
  | step
  | stepCpu
  | poll
  | tick (dots : UInt32)

/-- The action on a machine that a job is. -/
def Job.action : Job → Machine.Action
  | .insert image => .insert image
  | .reset => .reset
  | .write bytes => .write bytes
  | .step => .step
  | .stepCpu => .stepCpu
  | .poll => .poll
  | .tick dots => .tick dots.toNat

namespace BoundedMachine

/-- The counters of a machine. -/
def ofMachine (machine : Machine) : BoundedMachine where
  board := .ofBoard machine.board
  memory := machine.memory
  cartridge := machine.cartridge

/-- Lets the board work on the memory. -/
def perform (machine : BoundedMachine) (work : BoundedBoard → CheckedTransaction BoundedBoard) :
    Checked BoundedMachine := do
  let (board, memory) ← runOn (work machine.board).run machine.memory
  return { machine with board, memory }

/-- Does a job. What the job returns is left out. -/
def act (machine : BoundedMachine) : Job → Checked BoundedMachine
  | .insert image =>
    return { machine with memory := machine.memory.insert image, cartridge := image }
  | .reset =>
    return {
      board := machine.board.reset
      memory := Machine.synchronised (MemoryMap.initial.insert machine.cartridge)
      cartridge := machine.cartridge }
  | .write bytes => machine.perform fun board => do
    bytes.transaction
    return board
  | .step => machine.perform fun board => Prod.snd <$> board.step
  | .stepCpu => machine.perform fun board => Prod.snd <$> board.stepCpu
  | .poll => machine.perform BoundedBoard.poll
  | .tick dots => machine.perform (BoundedBoard.tick dots)

/-- Does jobs one after the other. -/
def run (machine : BoundedMachine) (jobs : List Job) : Checked BoundedMachine :=
  jobs.foldlM act machine

end BoundedMachine

/-- The counters of cycles and frames have room for another job. -/
structure Machine.HasRoom (machine : Machine) : Prop where
  cycles : machine.board.cycles < UInt64.size - UInt32.size
  frames : machine.board.ppu.frames < UInt64.size - UInt32.size

/-- The counters of a new machine have room. -/
theorem Machine.hasRoom_inserted (config : Config) (image : Cartridge.Image) :
    ((Machine.initial config).insert image).HasRoom := by
  constructor
  · rw [board_insert]
    exact (by decide : 0 < UInt64.size - UInt32.size)
  · rw [board_insert]
    exact (by decide : 0 < UInt64.size - UInt32.size)

/-- A tick takes little of the room. -/
theorem Machine.hasRoom_tick {machine : Machine} (dots : UInt32)
    (cycles : machine.board.cycles < UInt64.size - UInt32.size)
    (frames : machine.board.ppu.frames + 2 ^ 16 < UInt64.size - UInt32.size) :
    (machine.replay ([Job.tick dots].map Job.action)).HasRoom := by
  have once (action : Action) : machine.replay [action] = machine.act action := rfl
  rw [List.map_singleton, once, Job.action, act_tick]
  refine ⟨cycles, ?_⟩
  rw [withParts_ppu]
  exact Nat.lt_of_le_of_lt (machine.board.ppu.frames_tick_le dots _) frames

theorem Machine.config_act (machine : Machine) (job : Job) :
    (machine.act job.action).board.config = machine.board.config := by
  cases job with
  | insert image => exact congrArg Board.config (board_insert machine image)
  | reset => rfl
  | write bytes => rfl
  | step => exact machine.config_step
  | stepCpu => rw [Job.action, act_stepCpu, withParts_config]
  | poll => rw [Job.action, act_poll, withParts_config]
  | tick dots => rw [Job.action, act_tick, withParts_config]

namespace BoundedMachine

/-- The board's work on a machine, from what the work comes to. -/
theorem perform_eq {α : Type} {machine : Machine}
    {work : BoundedBoard → CheckedTransaction BoundedBoard}
    {operation : Board → Transaction (α × Board)}
    (works : let after := (operation machine.board).run machine.memory
      (work (.ofBoard machine.board)).outcome machine.memory = .ok (.ofBoard after.1.2, after.2)) :
    (ofMachine machine).perform work = .ok (ofMachine (machine.perform operation).2) := by
  rw [perform, runOn_eq]
  change (do let after ← (work (.ofBoard machine.board)).outcome machine.memory; _) = _
  rw [works]
  rfl

/-- Every job is done without a fault, and the machine is where it is without limits. -/
theorem act_eq {machine : Machine} (job : Job)
    (multiplier : machine.board.config.dotsPerCycle < UInt32.size) (room : machine.HasRoom) :
    (ofMachine machine).act job = .ok (ofMachine (machine.act job.action)) := by
  cases job with
  | insert image =>
    rw [act, Job.action, Machine.act, Machine.insert]
    rfl
  | reset =>
    rw [act, Job.action, Machine.act, Machine.reset, ofMachine, BoundedBoard.reset_ofBoard]
    rfl
  | write bytes =>
    rw [act, Job.action, Machine.act, Machine.written, ofMachine, perform, runOn_eq,
      outcome_bind_lift]
    rfl
  | step =>
    rw [act, Job.action, Machine.act, Machine.step]
    refine perform_eq ?_
    rw [outcome_map, BoundedBoard.outcome_step _ _ multiplier room.cycles room.frames]
    rfl
  | stepCpu =>
    rw [act, Job.action, Machine.act]
    refine perform_eq ?_
    rw [outcome_map, BoundedBoard.outcome_stepCpu]
    rfl
  | poll =>
    rw [act, Job.action, Machine.act]
    exact perform_eq (BoundedBoard.outcome_poll _ _)
  | tick dots =>
    rw [act, Job.action, Machine.act]
    exact perform_eq (BoundedBoard.outcome_tick _ _ dots room.frames)

/-- A machine that does jobs has no fault if its counters have room before each of them: no sum,
difference, product or shift is too great or too small, and no index lies behind its array. It does
not matter what the memory holds, the cartridge in it included, how many dots pass in a cycle, or
how the machine came to be where it stands. -/
theorem run_eq_replay (machine : Machine) (jobs : List Job)
    (multiplier : machine.board.config.dotsPerCycle < UInt32.size)
    (room : ∀ before, before <+: jobs → before ≠ jobs →
      (Machine.replay (before.map Job.action) machine).HasRoom) :
    (ofMachine machine).run jobs =
      .ok (ofMachine (Machine.replay (jobs.map Job.action) machine)) := by
  induction jobs generalizing machine with
  | nil => rfl
  | cons job later ih =>
    have first : machine.HasRoom := room [] List.nil_prefix (List.cons_ne_nil _ _).symm
    have rest := ih (machine.act job.action) (by rwa [machine.config_act])
      fun before starts proper => room (job :: before) ((List.prefix_cons_inj job).2 starts)
        (fun same => proper (List.cons.inj same).2)
    rw [run, List.foldlM_cons, act_eq job multiplier first]
    exact rest

/-- On a machine with the greatest number of dots in a cycle: the greatest tick, then a step. -/
theorem run_greatest :
    (ofMachine ((Machine.initial { dotsPerCycle := UInt32.size - 1 }).insert #[0x27])).run
      [.tick 0xFFFFFFFF, .step] =
    .ok (ofMachine (Machine.replay ([Job.tick 0xFFFFFFFF, .step].map Job.action)
      ((Machine.initial { dotsPerCycle := UInt32.size - 1 }).insert #[0x27]))) := by
  have start := Machine.hasRoom_inserted { dotsPerCycle := UInt32.size - 1 } #[0x27]
  have board := (Machine.initial { dotsPerCycle := UInt32.size - 1 }).board_insert #[0x27]
  generalize (Machine.initial { dotsPerCycle := UInt32.size - 1 }).insert #[0x27] = machine at *
  have multiplier : machine.board.config.dotsPerCycle < UInt32.size := by
    rw [board]
    decide
  have frames : machine.board.ppu.frames = 0 := congrArg (·.ppu.frames) board
  refine run_eq_replay machine _ multiplier fun before starts proper => ?_
  rcases List.prefix_cons_iff.1 starts with rfl | ⟨others, rfl, rest⟩
  · exact start
  · rcases List.prefix_cons_iff.1 rest with rfl | ⟨none, rfl, ends⟩
    · exact Machine.hasRoom_tick _ start.cycles (by rw [frames]; decide)
    · exact absurd (congrArg (_ :: _ :: ·) (List.prefix_nil.1 ends)) proper

end BoundedMachine

end DotMatrix
