import DotMatrix.Proofs.Cpu.FlagRegister
import DotMatrix.Proofs.Machine.Steps
import DotMatrix.Proofs.Memory.Writes

/-!
# Flags on the stack

A program that interrupts another saves AF on the stack and takes it back. Taking it back drops the
lower half of the flags, so nothing is lost only because that half is always zero.

Results:
1. `clean_step`, `clean_steps`: the flags of a machine stay clean.
2. `Cpu.Fetches.accesses_push_af`, `Cpu.savesAf_of_push`: what PUSH AF writes, and that a later
   POP AF gets it back.
3. `lower_flags_stay_clear`: all of it, in terms of the bytes.
-/

namespace DotMatrix

open Memory

/-! ## Machines -/

namespace Machine

variable {machine : Machine}

theorem clean_step (clean : machine.board.cpu.registers.f.Clean) :
    machine.step.2.board.cpu.registers.f.Clean := by
  cases machine.stepCase with
  | stopped stopped =>
    rw [step_of_stopped stopped]
    exact clean
  | free going free =>
    rw [step_of_free going free, withParts_cpu, executed]
    exact Cpu.clean_step clean machine.memory
  | timed going timed =>
    rw [step_of_timed going timed, withParts_cpu, executed]
    exact Cpu.clean_step clean machine.memory

theorem clean_steps (clean : machine.board.cpu.registers.f.Clean) (count : Nat) :
    (machine.steps count).2.board.cpu.registers.f.Clean :=
  invariant_steps (fun machine => machine.board.cpu.registers.f.Clean) (fun _ => clean_step) clean
    count

end Machine

/-! ## Saving and restoring -/

namespace Cpu

variable {μ : Type} [Memory μ] {cpu : Cpu} {memory : μ}

theorem Fetches.run_push_af (fetches : cpu.Fetches memory (.push .af)) :
    let registers := cpu.registers
    let fetched := cpu.fetched
    cpu.step.run memory =
      ((4, { fetched with registers := { fetched.registers with sp := registers.sp - 2 } }),
        store (store memory (registers.sp - 1) registers.a) (registers.sp - 2)
          registers.f.bits) := by
  rw [fetches.run_step (by decide)]
  simp [execute, continueWith, StackRegister.get, fetched, Registers.af, Instruction.cycles]

theorem Fetches.accesses_push_af (fetches : cpu.Fetches memory (.push .af)) :
    let registers := cpu.registers
    cpu.step.accesses memory = cpu.polls ++ [.read registers.pc,
      .write (registers.sp - 1) registers.a, .write (registers.sp - 2) registers.f.bits] := by
  rw [fetches.accesses_step (by decide)]
  simp [execute, continueWith, StackRegister.get, fetched, Registers.af]

theorem Fetches.run_pop_af (fetches : cpu.Fetches memory (.pop .af)) :
    let registers := cpu.registers
    let fetched := cpu.fetched
    cpu.step.run memory =
      ((3, { fetched with
        registers := { fetched.registers with
          sp := registers.sp + 2
          a := load memory (registers.sp + 1)
          f := .truncate (load memory registers.sp) } }), memory) := by
  rw [fetches.run_step (by decide)]
  simp [execute, continueWith, StackRegister.set, fetched, Registers.setAf, Instruction.cycles]

theorem sub_two_add_one (sp : UInt16) : sp - 2 + 1 = sp - 1 := by grind

/-- Whenever AF is popped at `sp` and the two bytes there are as in `memory`, it is `a` and `f` that
come back. -/
def SavesAf (memory : μ) (sp : UInt16) (a : UInt8) (f : Flags) : Prop :=
  ∀ (cpu : Cpu) (later : μ), cpu.Fetches later (.pop .af) → cpu.registers.sp = sp →
    load later sp = load memory sp → load later (sp + 1) = load memory (sp + 1) →
    let popped := (cpu.step.run later).1.2.registers
    popped.a = a ∧ popped.f = f ∧ popped.sp = sp + 2

theorem savesAf_of_push [PlainMemory μ] (fetches : cpu.Fetches memory (.push .af))
    (clean : cpu.registers.f.Clean) (kept : PlainMemory.KeepsWord μ (cpu.registers.sp - 2)) :
    let pushed := cpu.step.run memory
    SavesAf pushed.2 pushed.1.2.registers.sp cpu.registers.a cpu.registers.f := by
  obtain ⟨low, high⟩ := kept.load_store memory cpu.registers.a cpu.registers.f.bits
  intro pushed later memory' popping same sameLow sameHigh popped
  have moved : pushed = _ := fetches.run_push_af
  have restored : popped = _ :=
    congrArg (fun after => after.1.2.registers) popping.run_pop_af
  rw [moved] at same sameLow sameHigh
  dsimp only at same sameLow sameHigh
  rw [sub_two_add_one] at low high sameHigh
  rw [same, sub_two_add_one, sameHigh, sameLow, high, low, clean.truncate_bits] at restored
  rw [restored, moved]
  exact ⟨rfl, rfl, rfl⟩

end Cpu

/-! ## What programs can rely on -/

/-- If the lower half of the flags is zero, it stays so, for any number of steps of a processor on
any memory and of a machine. What PUSH AF writes below the accumulator is then a multiple of 16, and
POP AF gets back from memory that keeps it exactly what was pushed. -/
theorem lower_flags_stay_clear :
    (∀ {μ : Type} [Memory μ] (cpu : Cpu) (memory : μ) (count : Nat),
      cpu.registers.f.bits &&& 0x0F = 0 →
      (cpu.steps memory count).1.registers.f.bits &&& 0x0F = 0) ∧
    (∀ (machine : Machine) (count : Nat),
      machine.board.cpu.registers.f.bits &&& 0x0F = 0 →
      (machine.steps count).2.board.cpu.registers.f.bits &&& 0x0F = 0) ∧
    (∀ {μ : Type} [Memory μ] (cpu : Cpu) (memory : μ),
      cpu.registers.f.bits &&& 0x0F = 0 → cpu.Fetches memory (.push .af) →
      cpu.step.accesses memory = cpu.polls ++ [.read cpu.registers.pc,
          .write (cpu.registers.sp - 1) cpu.registers.a,
          .write (cpu.registers.sp - 2) cpu.registers.f.bits] ∧
        cpu.registers.f.bits.toNat % 16 = 0) ∧
    (∀ (cpu : Cpu) (memory : MemoryMap),
      cpu.registers.f.bits &&& 0x0F = 0 → cpu.Fetches memory (.push .af) →
      Region.Writable (cpu.registers.sp - 1) → Region.Writable (cpu.registers.sp - 2) →
      let pushed := cpu.step.run memory
      Cpu.SavesAf pushed.2 pushed.1.2.registers.sp cpu.registers.a cpu.registers.f) ∧
    (∀ (cpu : Cpu) (memory : FlatMemory),
      cpu.registers.f.bits &&& 0x0F = 0 → cpu.Fetches memory (.push .af) →
      let pushed := cpu.step.run memory
      Cpu.SavesAf pushed.2 pushed.1.2.registers.sp cpu.registers.a cpu.registers.f) := by
  refine ⟨?cpu, ?machine, ?pushed, ?map, ?flat⟩
  case cpu =>
    intro μ _ cpu memory count clear
    exact Flags.clean_iff.1 (Cpu.clean_steps (Flags.clean_iff.2 clear) memory count)
  case machine =>
    intro machine count clear
    exact Flags.clean_iff.1 (Machine.clean_steps (Flags.clean_iff.2 clear) count)
  case pushed =>
    intro μ _ cpu memory clear pushing
    exact ⟨pushing.accesses_push_af, Flags.toNat_mod_of_clean (Flags.clean_iff.2 clear)⟩
  case map =>
    intro cpu memory clear pushing high low
    rw [← Cpu.sub_two_add_one] at high
    exact Cpu.savesAf_of_push pushing (Flags.clean_iff.2 clear) (PlainMemory.keepsWord_map low high)
  case flat =>
    intro cpu memory clear pushing
    exact Cpu.savesAf_of_push pushing (Flags.clean_iff.2 clear) (PlainMemory.keepsWord_flat _)

/-- The flags of the boot program, 0xB0, saved in high memory by one instruction of the work RAM and
restored by the next. -/
theorem lower_flags_stay_clear_push_pop :
    let memory := store (store MemoryMap.initial 0xC000 0xF5) 0xC001 0xF1
    let cpu := { Cpu.postBoot with registers := { Registers.postBoot with pc := 0xC000 } }
    let pushed := cpu.step.run memory
    let popped := pushed.1.2.step.run pushed.2
    cpu.registers.f.bits &&& 0x0F = 0 ∧ cpu.Fetches memory (.push .af) ∧
      Region.Writable (cpu.registers.sp - 1) ∧ Region.Writable (cpu.registers.sp - 2) ∧
      pushed.1.2.Fetches pushed.2 (.pop .af) ∧
      popped.1.2.registers.a = 0x01 ∧ popped.1.2.registers.f = .truncate 0xB0 := by
  intro memory cpu
  have clear : cpu.registers.f.bits &&& 0x0F = 0 := by decide
  have high : Region.Writable (cpu.registers.sp - 1) := by decide
  have low : Region.Writable (cpu.registers.sp - 2) := by decide
  have opcode : load memory cpu.registers.pc = 0xF5 := by
    rw [MemoryMap.load_store, if_neg (by decide), MemoryMap.load_store, if_pos (by decide)]
  have pushing : cpu.Fetches memory (.push .af) :=
    Cpu.fetches_of_opcode rfl rfl opcode (by decide)
  have following : load (store (store memory (cpu.registers.sp - 1) cpu.registers.a)
      (cpu.registers.sp - 2) cpu.registers.f.bits) 0xC001 = 0xF1 := by
    rw [MemoryMap.load_store, if_neg (by decide), MemoryMap.load_store, if_neg (by decide),
      MemoryMap.load_store, if_pos (by decide)]
  obtain ⟨-, -, -, restores, -⟩ := lower_flags_stay_clear
  have saved := restores cpu memory clear pushing high low
  have moved := pushing.run_push_af
  -- From here on only the equation matters: the step itself is not to be computed.
  generalize cpu.step.run memory = pushed at saved moved ⊢
  have popping : pushed.1.2.Fetches pushed.2 (.pop .af) := by
    rw [moved]
    exact Cpu.fetches_of_opcode rfl rfl following (by decide)
  obtain ⟨a, f, -⟩ := saved pushed.1.2 pushed.2 popping rfl rfl rfl
  exact ⟨clear, pushing, high, low, popping, a, f⟩

end DotMatrix
