import DotMatrix.Proofs.Bounded.Processor
import DotMatrix.Proofs.Cpu.ByteArithmetic
import DotMatrix.Proofs.Cpu.ProgramCounter

/-!
# Arithmetic on words

Words are added to HL, a signed byte is added to the stack pointer, and words are counted up and
down: for their own sake, or behind a load or a store that goes through HL. The pairs have no storage
of their own, so whatever is done to HL is done to H and L. A signed byte counts as such for the sum,
but the carries are those of the byte without a sign.

Results:
1. `Alu.isWordSum_addWords`, `Alu.isOffsetSum_addSigned`: the operations.
2. `Cpu.word_arithmetic`: the instructions, by opcode, with the addresses that those through HL use.
   None of the sums on the way is too great for the numbers that it is counted in.
-/

namespace DotMatrix

open Memory

/-! ## Sums -/

/-- A word and flags are those that a sum of words is to leave; `flags` are those before it. -/
structure IsWordSum (flags : Flags) (x y word : UInt16) (left : Flags) : Prop where
  word : word.toNat = (x.toNat + y.toNat) % 65536
  zero : left.zero = flags.zero
  subtract : left.subtract = false
  halfCarry : left.halfCarry = true ↔ 4096 ≤ x.toNat % 4096 + y.toNat % 4096
  carry : left.carry = true ↔ 65536 ≤ x.toNat + y.toNat

/-- A word and flags are those that the sum of a word and a signed byte is to leave. -/
structure IsOffsetSum (x : UInt16) (offset : UInt8) (word : UInt16) (left : Flags) : Prop where
  word : (word.toNat : ℤ) = (x.toNat + offset.toInt8.toInt) % 65536
  zero : left.zero = false
  subtract : left.subtract = false
  halfCarry : left.halfCarry = true ↔ 16 ≤ x.toNat % 16 + offset.toNat % 16
  carry : left.carry = true ↔ 256 ≤ x.toNat % 256 + offset.toNat

namespace Alu

/-- The lowest bits of a word. -/
theorem toNat_and_lowest (word mask : UInt16) (bits : ℕ) (ones : mask.toNat = 2 ^ bits - 1) :
    (word &&& mask).toNat = word.toNat % 2 ^ bits := by
  rw [UInt16.toNat_and, ones, Nat.and_two_pow_sub_one_eq_mod]

theorem isWordSum_addWords (flags : Flags) (x y : UInt16) :
    IsWordSum flags x y (addWords flags x y).1 (addWords flags x y).2 where
  word := UInt16.toNat_add x y
  zero := by simp [addWords]
  subtract := by simp [addWords]
  halfCarry := by
    have part (word : UInt16) := toNat_and_lowest word 0x0FFF 12 rfl
    simp only [addWords, Flags.halfCarry_withCarry, Flags.halfCarry_withHalfCarry, gt_iff_lt,
      decide_eq_true_eq, UInt16.lt_iff_toNat_lt, UInt16.toNat_add, part, UInt16.reduceToNat]
    omega
  carry := by
    have := x.toNat_lt
    have := y.toNat_lt
    simp only [addWords, Flags.carry_withCarry, gt_iff_lt, decide_eq_true_eq,
      UInt32.lt_iff_toNat_lt, UInt32.toNat_add, UInt16.toNat_toUInt32, UInt32.reduceToNat]
    omega

theorem isOffsetSum_addSigned (x : UInt16) (offset : UInt8) :
    IsOffsetSum x offset (addSigned x offset).1 (addSigned x offset).2 where
  word := Word.toNat_add_signExtend x offset
  zero := by simp [addSigned]
  subtract := by simp [addSigned]
  halfCarry := by
    have part (word : UInt16) := toNat_and_lowest word 0x000F 4 rfl
    have extended := Word.toNat_signExtend offset
    simp only [addSigned, Flags.halfCarry_ofConditions, gt_iff_lt, decide_eq_true_eq,
      UInt16.lt_iff_toNat_lt, UInt16.toNat_add, part, UInt16.reduceToNat]
    split at extended <;> omega
  carry := by
    have := offset.toNat_lt
    have part (word : UInt16) := toNat_and_lowest word 0x00FF 8 rfl
    have extended := Word.toNat_signExtend offset
    simp only [addSigned, Flags.carry_ofConditions, gt_iff_lt, decide_eq_true_eq,
      UInt16.lt_iff_toNat_lt, UInt16.toNat_add, part, UInt16.reduceToNat]
    split at extended <;> omega

end Alu

/-- Counting a word up by one, modulo 65536. -/
theorem Word.toNat_up (word : UInt16) : ((word + 1).toNat : ℤ) = (word.toNat + 1) % 65536 := by
  rw [UInt16.toNat_add]
  push_cast
  rfl

/-- Counting a word down by one, modulo 65536. -/
theorem Word.toNat_down (word : UInt16) : ((word - 1).toNat : ℤ) = (word.toNat + -1) % 65536 := by
  have := word.toNat_lt
  simp only [UInt16.toNat_sub, UInt16.reduceToNat]
  omega

/-! ## Opcodes -/

namespace Instruction

theorem decode_addHl : ∀ number : Fin 4,
    decode (.ofNat (0x09 + 16 * number)) = .addHl (.select number) := by
  decide

theorem decode_incWord : ∀ number : Fin 4,
    decode (.ofNat (0x03 + 16 * number)) = .incWord (.select number) := by
  decide

theorem decode_decWord : ∀ number : Fin 4,
    decode (.ofNat (0x0B + 16 * number)) = .decWord (.select number) := by
  decide

end Instruction

/-! ## Steps -/

/-- The program counter is no part of a word register. -/
theorem WordRegister.get_withPc (register : WordRegister) (registers : Registers) (pc : UInt16) :
    register.get { registers with pc } = register.get registers := by
  cases register with
  | pair name => cases name <;> rfl
  | sp => rfl

namespace Pointer

variable (registers : Registers)

theorem advance_hlUp :
    hlUp.advance registers = registers.withWord 2 (registers.word 2 + 1) := by
  rw [← registers.hl_eq_word]
  exact registers.setHl_eq_withWord _

theorem advance_hlDown :
    hlDown.advance registers = registers.withWord 2 (registers.word 2 - 1) := by
  rw [← registers.hl_eq_word]
  exact registers.setHl_eq_withWord _

end Pointer

namespace Cpu

variable {μ : Type} [Memory μ] {cpu : Cpu} {memory : μ} {number : Fin 4}

theorem Fetches.step_addHl (fetches : cpu.Fetches memory (.addHl (.select number))) :
    let registers := cpu.registers
    let sum := Alu.addWords registers.f (registers.word 2) (registers.word number)
    let after := cpu.step.run memory
    after.1.2.registers =
        { registers with f := sum.2, pc := registers.pc + 1 }.withWord 2 sum.1 ∧
      after.2 = memory := by
  dsimp only
  rw [fetches.run_step (by rintro ⟨⟩), ← Registers.setHl_eq_withWord, ← Registers.hl_eq_word,
    ← WordRegister.get_select]
  simp only [execute, continueWith, fetched, WordRegister.get_withPc]
  exact ⟨rfl, rfl⟩

theorem Fetches.step_addSp (fetches : cpu.Fetches memory .addSp) :
    let registers := cpu.registers
    let sum := Alu.addSigned registers.sp (load memory (registers.pc + 1))
    let after := cpu.step.run memory
    after.1.2.registers = { registers with sp := sum.1, f := sum.2, pc := registers.pc + 2 } ∧
      after.2 = memory := by
  have next : cpu.registers.pc + 1 + 1 = cpu.registers.pc + 2 := UInt16.add_assoc _ _ _
  dsimp only
  rw [fetches.run_step (by rintro ⟨⟩), ← next]
  exact ⟨rfl, rfl⟩

theorem Fetches.step_hlFromSp (fetches : cpu.Fetches memory .hlFromSp) :
    let registers := cpu.registers
    let sum := Alu.addSigned registers.sp (load memory (registers.pc + 1))
    let after := cpu.step.run memory
    after.1.2.registers =
        { registers with f := sum.2, pc := registers.pc + 2 }.withWord 2 sum.1 ∧
      after.2 = memory := by
  have next : cpu.registers.pc + 1 + 1 = cpu.registers.pc + 2 := UInt16.add_assoc _ _ _
  dsimp only
  rw [fetches.run_step (by rintro ⟨⟩), ← next, ← Registers.setHl_eq_withWord]
  exact ⟨rfl, rfl⟩

theorem Fetches.step_incWord (fetches : cpu.Fetches memory (.incWord (.select number))) :
    let registers := cpu.registers
    let after := cpu.step.run memory
    after.1.2.registers =
        { registers with pc := registers.pc + 1 }.withWord number (registers.word number + 1) ∧
      after.2 = memory := by
  dsimp only
  rw [fetches.run_step (by rintro ⟨⟩), ← WordRegister.set_select, ← WordRegister.get_select]
  simp only [execute, continueWith, fetched, WordRegister.get_withPc]
  exact ⟨rfl, rfl⟩

theorem Fetches.step_decWord (fetches : cpu.Fetches memory (.decWord (.select number))) :
    let registers := cpu.registers
    let after := cpu.step.run memory
    after.1.2.registers =
        { registers with pc := registers.pc + 1 }.withWord number (registers.word number - 1) ∧
      after.2 = memory := by
  dsimp only
  rw [fetches.run_step (by rintro ⟨⟩), ← WordRegister.set_select, ← WordRegister.get_select]
  simp only [execute, continueWith, fetched, WordRegister.get_withPc]
  exact ⟨rfl, rfl⟩

theorem Fetches.step_storeA (pointer : Pointer) {address : UInt16}
    (points : pointer.address cpu.registers = address)
    (fetches : cpu.Fetches memory (.storeA (.pointer pointer))) :
    let registers := cpu.registers
    let after := cpu.step.run memory
    after.1.2.registers = pointer.advance { registers with pc := registers.pc + 1 } ∧
      after.2 = store memory address registers.a ∧
      cpu.step.accesses memory =
        cpu.polls ++ [.read registers.pc, .write address registers.a] := by
  dsimp only
  rw [fetches.run_step (by rintro ⟨⟩), fetches.accesses_step (by rintro ⟨⟩), ← points]
  cases pointer <;> exact ⟨rfl, rfl, rfl⟩

theorem Fetches.step_loadA (pointer : Pointer) {address : UInt16}
    (points : pointer.address cpu.registers = address)
    (fetches : cpu.Fetches memory (.loadA (.pointer pointer))) :
    let registers := cpu.registers
    let after := cpu.step.run memory
    after.1.2.registers =
        pointer.advance { registers with a := load memory address, pc := registers.pc + 1 } ∧
      after.2 = memory ∧
      cpu.step.accesses memory = cpu.polls ++ [.read registers.pc, .read address] := by
  dsimp only
  rw [fetches.run_step (by rintro ⟨⟩), fetches.accesses_step (by rintro ⟨⟩), ← points]
  cases pointer <;> exact ⟨rfl, rfl, rfl⟩

/-- Arithmetic on words as instructions, with what they leave of the registers, the flags and the
memory. ADD HL adds a word register to HL; ADD SP and LD HL,SP+e make the same sum of the stack
pointer and a signed byte, and the same flags. A word register is counted up or down through both of
its bytes, and keeps the flags. Loads and stores through HL use it as it was, and then count it up
or down. No sum on the way overflows. -/
theorem word_arithmetic (running : cpu.locked = false) (awake : ¬ cpu.Waits memory) :
    let registers := cpu.registers
    let hl := registers.word 2
    let opcode := (load memory registers.pc).toNat
    let offset := load memory (registers.pc + 1)
    let after := cpu.step.run memory
    let left := after.1.2.registers
    let accesses := cpu.step.accesses memory
    let counts (word : UInt16) (difference : ℤ) (counted : UInt16) :=
      (counted.toNat : ℤ) = (word.toNat + difference) % 65536
    (∀ number : Fin 4,
      let value := registers.word number
      let moves (difference : ℤ) := after.2 = memory ∧
        ∃ word, counts value difference word ∧
          left = { registers with pc := registers.pc + 1 }.withWord number word
      (opcode = 0x09 + 16 * number → after.2 = memory ∧
        ∃ word flags, IsWordSum registers.f hl value word flags ∧
          left = { registers with f := flags, pc := registers.pc + 1 }.withWord 2 word) ∧
      (opcode = 0x03 + 16 * number → moves 1) ∧
      (opcode = 0x0B + 16 * number → moves (-1))) ∧
    (opcode = 0xE8 → after.2 = memory ∧
      ∃ word flags, IsOffsetSum registers.sp offset word flags ∧
        left = { registers with sp := word, f := flags, pc := registers.pc + 2 }) ∧
    (opcode = 0xF8 → after.2 = memory ∧
      ∃ word flags, IsOffsetSum registers.sp offset word flags ∧
        left = { registers with f := flags, pc := registers.pc + 2 }.withWord 2 word) ∧
    (let stores (difference : ℤ) :=
        accesses = cpu.polls ++ [.read registers.pc, .write hl registers.a] ∧
        after.2 = store memory hl registers.a ∧
        ∃ word, counts hl difference word ∧
          left = { registers with pc := registers.pc + 1 }.withWord 2 word
      let loads (difference : ℤ) :=
        accesses = cpu.polls ++ [.read registers.pc, .read hl] ∧
        after.2 = memory ∧
        ∃ word, counts hl difference word ∧
          left = { registers with a := load memory hl, pc := registers.pc + 1 }.withWord 2 word
      (opcode = 0x22 → stores 1) ∧ (opcode = 0x32 → stores (-1)) ∧
      (opcode = 0x2A → loads 1) ∧ (opcode = 0x3A → loads (-1))) ∧
    cpu.stepChecked.outcome memory = .ok (counted after) := by
  intro registers hl opcode offset after left accesses counts
  have fetches {number : ℕ} {instruction : Instruction} (stands : opcode = number)
      (decoded : Instruction.decode (.ofNat number) = instruction) :
      cpu.Fetches memory instruction := fetches_of_toNat running awake stands decoded
  refine ⟨fun number => ?registers, fun stands => ?addSp, fun stands => ?hlFromSp, ?pointers,
    cpu.outcome_stepChecked memory⟩
  case registers =>
    intro value moves
    refine ⟨fun stands => ?_, fun stands => ?_, fun stands => ?_⟩
    · obtain ⟨changed, kept⟩ := (fetches stands (Instruction.decode_addHl number)).step_addHl
      exact ⟨kept, _, _, Alu.isWordSum_addWords _ _ _, changed⟩
    · obtain ⟨changed, kept⟩ := (fetches stands (Instruction.decode_incWord number)).step_incWord
      exact ⟨kept, _, Word.toNat_up value, changed⟩
    · obtain ⟨changed, kept⟩ := (fetches stands (Instruction.decode_decWord number)).step_decWord
      exact ⟨kept, _, Word.toNat_down value, changed⟩
  case addSp =>
    obtain ⟨changed, kept⟩ := (fetches stands rfl).step_addSp
    exact ⟨kept, _, _, Alu.isOffsetSum_addSigned _ _, changed⟩
  case hlFromSp =>
    obtain ⟨changed, kept⟩ := (fetches stands rfl).step_hlFromSp
    exact ⟨kept, _, _, Alu.isOffsetSum_addSigned _ _, changed⟩
  case pointers =>
    intro stores loads
    have points : registers.hl = hl := registers.hl_eq_word
    refine ⟨fun stands => ?_, fun stands => ?_, fun stands => ?_, fun stands => ?_⟩
    · obtain ⟨changed, stored, made⟩ := Fetches.step_storeA .hlUp points (fetches stands rfl)
      exact ⟨made, stored, _, Word.toNat_up hl, changed.trans (Pointer.advance_hlUp _)⟩
    · obtain ⟨changed, stored, made⟩ := Fetches.step_storeA .hlDown points (fetches stands rfl)
      exact ⟨made, stored, _, Word.toNat_down hl, changed.trans (Pointer.advance_hlDown _)⟩
    · obtain ⟨changed, kept, made⟩ := Fetches.step_loadA .hlUp points (fetches stands rfl)
      exact ⟨made, kept, _, Word.toNat_up hl, changed.trans (Pointer.advance_hlUp _)⟩
    · obtain ⟨changed, kept, made⟩ := Fetches.step_loadA .hlDown points (fetches stands rfl)
      exact ⟨made, kept, _, Word.toNat_down hl, changed.trans (Pointer.advance_hlDown _)⟩

/-- After the boot program HL is $014D, DE is $00D8 and the stack pointer $FFFE. LD HL,SP+e with $FE
for the byte takes two away, but has the carries of 254. ADD HL,DE fills H and L, ADD HL,SP carries
and keeps the zero flag, and INC DE counts both bytes. -/
theorem word_arithmetic_sums :
    let program (opcode : UInt8) := store (store FlatMemory.blank 0x0100 opcode) 0x0101 0xFE
    let offset := (postBoot.step.run (program 0xF8)).1.2.registers
    let sum := (postBoot.step.run (program 0x19)).1.2.registers
    let wrapped := (postBoot.step.run (program 0x39)).1.2.registers
    let next := (postBoot.step.run (program 0x13)).1.2.registers
    postBoot.locked = false ∧ (∀ opcode, ¬ postBoot.Waits (program opcode)) ∧
      (∀ opcode, (load (program opcode) postBoot.registers.pc).toNat = opcode.toNat) ∧
      offset.h = 0xFF ∧ offset.l = 0xFC ∧ offset.f.halfCarry = true ∧ offset.f.carry = true ∧
      sum.h = 0x02 ∧ sum.l = 0x25 ∧
      wrapped.h = 0x01 ∧ wrapped.l = 0x4B ∧ wrapped.f.carry = true ∧ wrapped.f.zero = true ∧
      next.d = 0x00 ∧ next.e = 0xD9 ∧ next.f = postBoot.registers.f := by
  intro program offset sum wrapped next
  have awake (opcode : UInt8) : ¬ postBoot.Waits (program opcode) := not_waits_of_awake rfl
  have stands (opcode : UInt8) :
      (load (program opcode) postBoot.registers.pc).toNat = opcode.toNat := by
    simp [program, postBoot, Registers.postBoot, FlatMemory.load_store]
  have byte : load (program 0xF8) (postBoot.registers.pc + 1) = 0xFE := by
    simp [program, postBoot, Registers.postBoot, FlatMemory.load_store]
  obtain ⟨-, -, hlFromSp, -⟩ := word_arithmetic rfl (awake 0xF8)
  obtain ⟨-, below, flags, less, offset_eq⟩ := hlFromSp (stands 0xF8)
  rw [byte] at less
  have below_eq : below = 0xFFFC := UInt16.toNat_inj.1 (Int.ofNat.inj less.word)
  obtain ⟨addsDe, -⟩ := (word_arithmetic rfl (awake 0x19)).1 1
  obtain ⟨-, total, flags', adds, sum_eq⟩ := addsDe (stands 0x19)
  have total_eq : total = 0x0225 := UInt16.toNat_inj.1 adds.word
  obtain ⟨addsSp, -⟩ := (word_arithmetic rfl (awake 0x39)).1 3
  obtain ⟨-, beyond, flags'', wraps, wrapped_eq⟩ := addsSp (stands 0x39)
  have beyond_eq : beyond = 0x014B := UInt16.toNat_inj.1 wraps.word
  obtain ⟨-, countsDe, -⟩ := (word_arithmetic rfl (awake 0x13)).1 1
  obtain ⟨-, counted, counts, next_eq⟩ := countsDe (stands 0x13)
  have counted_eq : counted = 0x00D9 := UInt16.toNat_inj.1 (Int.ofNat.inj counts)
  subst below_eq total_eq beyond_eq counted_eq
  refine ⟨rfl, awake, stands, congrArg Registers.h offset_eq, congrArg Registers.l offset_eq, ?_,
    ?_, congrArg Registers.h sum_eq, congrArg Registers.l sum_eq, congrArg Registers.h wrapped_eq,
    congrArg Registers.l wrapped_eq, ?_, ?_, congrArg Registers.d next_eq,
    congrArg Registers.e next_eq, (congrArg Registers.f next_eq).trans rfl⟩
  · exact (congrArg (·.f.halfCarry) offset_eq).trans (less.halfCarry.2 (by decide))
  · exact (congrArg (·.f.carry) offset_eq).trans (less.carry.2 (by decide))
  · exact (congrArg (·.f.carry) wrapped_eq).trans (wraps.carry.2 (by decide))
  · exact (congrArg (·.f.zero) wrapped_eq).trans wraps.zero

end Cpu

end DotMatrix
