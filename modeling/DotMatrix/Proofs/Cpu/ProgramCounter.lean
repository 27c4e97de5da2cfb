import DotMatrix.Memory.Flat
import DotMatrix.Proofs.Cpu.Calls
import DotMatrix.Proofs.Cpu.Encoding

/-!
# The next instruction

Nothing in the processor says how long an instruction is: it is as long as the bytes that it happens
to fetch. Here the lengths are a table, and every instruction that does not hand over control is shown
to leave the program counter behind its last byte. For the others it is said where they go, and what
they leave on the stack.

Results:
1. `Instruction.length_lookup`: the lengths by opcode.
2. `Flags.take_iff`, `Flags.handsOver_of_transfers`: the opcodes that hand over control, and when.
3. `Cpu.pc_execute`: instructions that go on behind their own bytes.
4. `Cpu.next_pc`: where the program goes on after a step.
-/

namespace DotMatrix

open Memory

/-! ## Lengths -/

/-- The bytes of an instruction that a source reads. -/
def Source.length : Source → Nat
  | .operand _ => 0
  | .immediate => 1

/-- The bytes of an instruction that name a place. -/
def Place.length : Place → Nat
  | .pointer _ | .highC => 0
  | .high => 1
  | .absolute => 2

namespace Instruction

/-- The bytes behind the opcode that belong to an instruction. -/
def operandLength : Instruction → Nat
  | .load _ source | .arithmetic _ source => source.length
  | .storeA place | .loadA place => place.length
  | .loadWord _ | .storeSp | .jump _ | .call _ => 2
  | .stop | .hlFromSp | .addSp | .jumpRelative _ | .extended => 1
  | _ => 0

/-- The bytes of an instruction. -/
def length (instruction : Instruction) : Nat := 1 + instruction.operandLength

/-- Whether an instruction hands over control, when the flags are `flags`. -/
def transfers (flags : Flags) : Instruction → Bool
  | .jumpRelative guard | .jump guard | .call guard | .ret guard => Condition.met guard flags
  | .jumpHl | .restart _ | .reti => true
  | _ => false

end Instruction

/-- The lengths of the opcodes, with a row for each upper half; an opcode without a meaning has only
itself. -/
def lengthRows : Vector (Vector Nat 16) 16 := #v[
  #v[1, 3, 1, 1, 1, 1, 2, 1, 3, 1, 1, 1, 1, 1, 2, 1],
  #v[2, 3, 1, 1, 1, 1, 2, 1, 2, 1, 1, 1, 1, 1, 2, 1],
  #v[2, 3, 1, 1, 1, 1, 2, 1, 2, 1, 1, 1, 1, 1, 2, 1],
  #v[2, 3, 1, 1, 1, 1, 2, 1, 2, 1, 1, 1, 1, 1, 2, 1],
  #v[1, 1, 1, 1, 1, 1, 1, 1, 1, 1, 1, 1, 1, 1, 1, 1],
  #v[1, 1, 1, 1, 1, 1, 1, 1, 1, 1, 1, 1, 1, 1, 1, 1],
  #v[1, 1, 1, 1, 1, 1, 1, 1, 1, 1, 1, 1, 1, 1, 1, 1],
  #v[1, 1, 1, 1, 1, 1, 1, 1, 1, 1, 1, 1, 1, 1, 1, 1],
  #v[1, 1, 1, 1, 1, 1, 1, 1, 1, 1, 1, 1, 1, 1, 1, 1],
  #v[1, 1, 1, 1, 1, 1, 1, 1, 1, 1, 1, 1, 1, 1, 1, 1],
  #v[1, 1, 1, 1, 1, 1, 1, 1, 1, 1, 1, 1, 1, 1, 1, 1],
  #v[1, 1, 1, 1, 1, 1, 1, 1, 1, 1, 1, 1, 1, 1, 1, 1],
  #v[1, 1, 3, 3, 3, 1, 2, 1, 1, 1, 3, 2, 3, 3, 2, 1],
  #v[1, 1, 3, 1, 3, 1, 2, 1, 1, 1, 3, 1, 3, 1, 2, 1],
  #v[2, 1, 1, 1, 1, 1, 2, 1, 2, 1, 3, 1, 1, 1, 2, 1],
  #v[2, 1, 1, 1, 1, 1, 2, 1, 2, 1, 3, 1, 1, 1, 2, 1]]

/-- The two halves of an opcode choose a row and a column. -/
theorem Opcode.halves_lt (opcode : UInt8) : opcode.toNat / 16 < 16 ∧ opcode.toNat % 16 < 16 :=
  ⟨Nat.div_lt_of_lt_mul opcode.toNat_lt, Nat.mod_lt _ (by decide)⟩

/-- The length of an opcode. -/
def opcodeLength (opcode : UInt8) : Nat :=
  have halves := Opcode.halves_lt opcode
  (lengthRows.get ⟨opcode.toNat / 16, halves.1⟩).get ⟨opcode.toNat % 16, halves.2⟩

theorem Instruction.length_lookup (opcode : UInt8) :
    (lookup opcode).length = opcodeLength opcode := by
  rw [lookup_eq_decode]
  revert opcode
  exact BitField.forall_byte (by decide +kernel)

/-! ## Opcodes that hand over control -/

namespace Flags

variable (flags : Flags) (opcode always guarded : Nat)

/-- The opcode is the one of a family that always goes through, or one of the four with a condition,
which the flags meet; the condition's number is in bits 3 and 4. -/
def Take : Prop :=
  opcode = always ∨ ∃ condition : Fin 4, opcode = guarded + 8 * condition ∧ flags.Meets condition

instance : Decidable (flags.Take opcode always guarded) := inferInstanceAs (Decidable (_ ∨ _))

/-- The opcode hands over control with these flags: JR, JP, JP HL, CALL, RST, RET or RETI. -/
def HandsOver : Prop :=
  flags.Take opcode 0x18 0x20 ∨ flags.Take opcode 0xC3 0xC2 ∨ opcode = 0xE9 ∨
    flags.Take opcode 0xCD 0xC4 ∨ (∃ number : Fin 8, opcode = 0xC7 + 8 * number) ∨
    flags.Take opcode 0xC9 0xC0 ∨ opcode = 0xD9

instance : Decidable (flags.HandsOver opcode) := inferInstanceAs (Decidable (_ ∨ _))

end Flags

namespace Condition

/-- The opcode of a family with a condition or with none. -/
def opcode (always guarded : Nat) : Option Condition → Nat
  | none => always
  | some condition => guarded + 8 * condition.number

end Condition

theorem Flags.take_iff {flags : Flags} {opcode always guarded : Nat} :
    flags.Take opcode always guarded ↔
      ∃ guard, opcode = Condition.opcode always guarded guard ∧ Condition.met guard flags = true := by
  constructor
  · rintro (rfl | ⟨number, rfl, meets⟩)
    · exact ⟨none, rfl, rfl⟩
    · refine ⟨some (.select number), ?_, (Condition.holds_select flags number).2 meets⟩
      rw [Condition.opcode, Condition.number_select]
  · rintro ⟨_ | condition, rfl, met⟩
    · exact .inl rfl
    · refine .inr ⟨condition.number, rfl, (Condition.holds_select flags _).1 ?_⟩
      rw [condition.select_number]
      exact met

namespace Instruction

/-- The opcodes of jumps, calls and returns, with a condition or with none. -/
theorem decode_guarded (guard : Option Condition) :
    decode (.ofNat (Condition.opcode 0x18 0x20 guard)) = .jumpRelative guard ∧
      decode (.ofNat (Condition.opcode 0xC3 0xC2 guard)) = .jump guard ∧
      decode (.ofNat (Condition.opcode 0xCD 0xC4 guard)) = .call guard ∧
      decode (.ofNat (Condition.opcode 0xC9 0xC0 guard)) = .ret guard := by
  cases guard with
  | none => decide
  | some condition => cases condition <;> decide

theorem decode_restart : ∀ number : Fin 8,
    decode (.ofNat (0xC7 + 8 * number)) = .restart number := by
  decide

/-- The opcode of an instruction that can hand over control. -/
def transferOpcode : Instruction → Option Nat
  | .jumpRelative guard => some (Condition.opcode 0x18 0x20 guard)
  | .jump guard => some (Condition.opcode 0xC3 0xC2 guard)
  | .jumpHl => some 0xE9
  | .call guard => some (Condition.opcode 0xCD 0xC4 guard)
  | .restart number => some (0xC7 + 8 * number)
  | .ret guard => some (Condition.opcode 0xC9 0xC0 guard)
  | .reti => some 0xD9
  | _ => none

/-- No other opcode stands for an instruction that can hand over control. -/
theorem transferOpcode_lookup (opcode : UInt8) :
    (lookup opcode).transferOpcode.getD opcode.toNat = opcode.toNat := by
  rw [lookup_eq_decode]
  revert opcode
  exact BitField.forall_byte (by decide +kernel)

end Instruction

theorem Flags.handsOver_of_transfers {flags : Flags} {opcode : UInt8}
    (transfers : (Instruction.lookup opcode).transfers flags = true) :
    flags.HandsOver opcode.toNat := by
  have stands := Instruction.transferOpcode_lookup opcode
  revert stands transfers
  cases Instruction.lookup opcode with
  | jumpRelative guard => exact fun met stands => .inl (take_iff.2 ⟨guard, stands.symm, met⟩)
  | jump guard => exact fun met stands => .inr (.inl (take_iff.2 ⟨guard, stands.symm, met⟩))
  | jumpHl => exact fun _ stands => .inr (.inr (.inl stands.symm))
  | call guard =>
    exact fun met stands => .inr (.inr (.inr (.inl (take_iff.2 ⟨guard, stands.symm, met⟩))))
  | restart number =>
    exact fun _ stands => .inr (.inr (.inr (.inr (.inl ⟨number, stands.symm⟩))))
  | ret guard =>
    exact fun met stands =>
      .inr (.inr (.inr (.inr (.inr (.inl (take_iff.2 ⟨guard, stands.symm, met⟩))))))
  | reti => exact fun _ stands => .inr (.inr (.inr (.inr (.inr (.inr stands.symm)))))
  | _ => exact fun transfers => Bool.noConfusion transfers

/-! ## Instructions that go on behind their bytes -/

section

variable {μ : Type} [Memory μ]

@[simp] theorem Registers.pc_set (registers : Registers) (register : ByteRegister) (value : UInt8) :
    (registers.set register value).pc = registers.pc := by
  cases register <;> rfl

@[simp] theorem Registers.pc_setPair (registers : Registers) (pair : Pair) (word : UInt16) :
    (registers.setPair pair word).pc = registers.pc := by
  rw [setPair, pc_set, pc_set]

@[simp] theorem Operand.pc_write (operand : Operand) (registers : Registers) (value : UInt8)
    (memory : μ) : ((operand.write registers value).run memory).1.pc = registers.pc := by
  cases operand with
  | register name => exact registers.pc_set name value
  | atHl => rfl

@[simp] theorem Source.pc_read (source : Source) (registers : Registers) (memory : μ) :
    ((source.read registers).run memory).1.2.pc = registers.pc + .ofNat source.length := by
  cases source with
  | operand place => simp [read, length]
  | immediate => rfl

@[simp] theorem WordRegister.pc_set (register : WordRegister) (registers : Registers)
    (word : UInt16) : (register.set registers word).pc = registers.pc := by
  cases register with
  | pair name => exact registers.pc_setPair name word
  | sp => rfl

@[simp] theorem StackRegister.pc_set (register : StackRegister) (registers : Registers)
    (word : UInt16) : (register.set registers word).pc = registers.pc := by
  cases register with
  | pair name => exact registers.pc_setPair name word
  | af => rfl

@[simp] theorem Pointer.pc_advance (pointer : Pointer) (registers : Registers) :
    (pointer.advance registers).pc = registers.pc := by
  cases pointer <;> simp [advance, Registers.incrementPair, Registers.decrementPair]

@[simp] theorem Place.pc_address (place : Place) (registers : Registers) (memory : μ) :
    ((place.address registers).run memory).1.2.pc = registers.pc + .ofNat place.length := by
  cases place <;> simp [address, length]

@[simp] theorem Cpu.pc_executeBit (registers : Registers) (instruction : BitInstruction)
    (memory : μ) : ((executeBit registers instruction).run memory).1.pc = registers.pc := by
  cases instruction <;> simp [executeBit]

/-- An instruction that does not hand over control goes on behind its bytes. -/
theorem Cpu.pc_execute (cpu : Cpu) (memory : μ) {instruction : Instruction}
    (straight : instruction.transfers cpu.registers.f = false) :
    ((cpu.execute instruction).run memory).1.2.registers.pc =
      cpu.registers.pc + .ofNat instruction.operandLength := by
  cases instruction with
  | jumpRelative guard | jump guard | call guard | ret guard =>
    have unmet : Condition.met guard cpu.registers.f = false := straight
    simp [execute, continueWith, unmet, Instruction.operandLength]
  | jumpHl | restart | reti => cases straight
  | _ => simp [execute, continueWith, setResult, Instruction.operandLength, Registers.setHl]

/-! ## Where a step goes on -/

/-- A relative jump counts from behind its bytes, upwards and downwards. -/
theorem Word.toNat_add_signExtend (behind : UInt16) (offset : UInt8) :
    ((behind + signExtend offset).toNat : Int) =
      (behind.toNat + offset.toInt8.toInt) % 65536 := by
  have := offset.toNat_lt
  have signed : offset.toInt8.toInt = (offset.toNat : Int).bmod 256 := BitVec.toInt_eq_toNat_bmod _
  rw [UInt16.toNat_add, toNat_signExtend, signed, Int.bmod_def]
  split <;> split <;> omega

namespace Cpu

variable {cpu : Cpu} {memory : μ} {instruction : Instruction}

theorem Fetches.pc_step (fetches : cpu.Fetches memory instruction)
    (valid : instruction ≠ .unused)
    (straight : instruction.transfers cpu.registers.f = false) :
    (cpu.step.run memory).1.2.registers.pc = cpu.registers.pc + .ofNat instruction.length := by
  rw [fetches.run_step valid]
  exact (cpu.fetched.pc_execute memory straight).trans (by
    simp [fetched, Instruction.length, UInt16.ofNat_add, UInt16.add_assoc])

theorem Fetches.pc_step_jumpRelative {guard : Option Condition}
    (fetches : cpu.Fetches memory (.jumpRelative guard))
    (met : Condition.met guard cpu.registers.f = true) :
    (cpu.step.run memory).1.2.registers.pc =
      cpu.registers.pc + 2 + Word.signExtend (load memory (cpu.registers.pc + 1)) := by
  have next : cpu.registers.pc + 1 + 1 = cpu.registers.pc + 2 := UInt16.add_assoc _ _ _
  rw [fetches.run_step (by rintro ⟨⟩)]
  simp [execute, fetched, met, next]

theorem Fetches.pc_step_jump {guard : Option Condition}
    (fetches : cpu.Fetches memory (.jump guard))
    (met : Condition.met guard cpu.registers.f = true) :
    (cpu.step.run memory).1.2.registers.pc =
      Word.join (load memory (cpu.registers.pc + 2)) (load memory (cpu.registers.pc + 1)) := by
  have next : cpu.registers.pc + 1 + 1 = cpu.registers.pc + 2 := UInt16.add_assoc _ _ _
  rw [fetches.run_step (by rintro ⟨⟩)]
  simp [execute, fetched, met, next]

theorem Fetches.pc_step_jumpHl (fetches : cpu.Fetches memory .jumpHl) :
    (cpu.step.run memory).1.2.registers.pc = cpu.registers.hl := by
  rw [fetches.run_step (by rintro ⟨⟩)]
  rfl

theorem Fetches.step_return (fetches : cpu.Fetches memory instruction)
    (returning : instruction.returns cpu.registers.f = true) :
    let after := cpu.step.run memory
    after.1.2.registers.pc.toNat = (load memory cpu.registers.sp).toNat +
        256 * (load memory (cpu.registers.sp + 1)).toNat ∧
      after.1.2.registers.sp = cpu.registers.sp + 2 ∧ after.2 = memory := by
  intro after
  obtain ⟨same, registers⟩ :=
    fetches.step_stack (Instruction.stackOperation_of_returns returning)
  rw [StackOperation.run_perform_pop] at same registers
  rw [Instruction.afterStack_of_returns returning] at registers
  have target : after.1.2.registers.pc =
      Word.join (load memory (cpu.registers.sp + 1)) (load memory cpu.registers.sp) :=
    congrArg Registers.pc registers
  refine ⟨?_, congrArg Registers.sp registers, same⟩
  rw [target, Word.toNat_join, Nat.add_comm]

/-- Where the program goes on after an opcode with a meaning. One that does not hand over control,
because it never does or because its condition does not hold, goes on behind its bytes. A relative
jump counts from there; the other jumps go to the word behind the opcode or in HL. A call goes to the
word behind the opcode and a restart to eight times its number, and both leave the address behind
their bytes on the stack, the high byte written first. A return goes to the word on the stack and
takes it away. The bytes behind the opcode are those before anything is written. -/
theorem next_pc (running : cpu.locked = false) (awake : ¬ cpu.Waits memory)
    (meaningful : load memory cpu.registers.pc ∉ Instruction.unusedOpcodes) :
    let registers := cpu.registers
    let flags := registers.f
    let opcode := (load memory registers.pc).toNat
    let first := load memory (registers.pc + 1)
    let second := load memory (registers.pc + 2)
    let operand : UInt16 := .ofNat (256 * second.toNat + first.toNat)
    let after := cpu.step.run memory
    let pc := after.1.2.registers.pc
    let sp := after.1.2.registers.sp
    let pushes (back : UInt16) :=
      sp = registers.sp - 2 ∧
        after.2 = store (store memory (registers.sp - 1) (.ofNat (back.toNat / 256)))
          (registers.sp - 2) (.ofNat (back.toNat % 256))
    let pops :=
      pc.toNat = (load memory registers.sp).toNat + 256 * (load memory (registers.sp + 1)).toNat ∧
        sp = registers.sp + 2 ∧ after.2 = memory
    (flags.Take opcode 0x18 0x20 →
      (pc.toNat : Int) = (registers.pc.toNat + 2 + first.toInt8.toInt) % 65536) ∧
    (flags.Take opcode 0xC3 0xC2 → pc = operand) ∧
    (opcode = 0xE9 → pc = registers.word 2) ∧
    (flags.Take opcode 0xCD 0xC4 → pc = operand ∧ pushes (registers.pc + 3)) ∧
    (∀ number : Fin 8, opcode = 0xC7 + 8 * number →
      pc.toNat = 8 * number ∧ pushes (registers.pc + 1)) ∧
    (flags.Take opcode 0xC9 0xC0 ∨ opcode = 0xD9 → pops) ∧
    (¬ flags.HandsOver opcode →
      pc = registers.pc + .ofNat (opcodeLength (load memory registers.pc))) := by
  intro registers flags opcode first second operand after pc sp pushes pops
  have fetches {number : Nat} {instruction : Instruction} (stands : opcode = number)
      (decoded : Instruction.decode (.ofNat number) = instruction) :
      cpu.Fetches memory instruction := fetches_of_toNat running awake stands decoded
  have word : Word.join second first = operand := Word.join_eq_ofNat second first
  refine ⟨fun takes => ?relative, fun takes => ?jump, fun stands => ?jumpHl, fun takes => ?call,
    fun number stands => ?restart, fun takes => ?ret, fun stays => ?straight⟩
  case relative =>
    obtain ⟨guard, stands, met⟩ := Flags.take_iff.1 takes
    have fetched := fetches stands (Instruction.decode_guarded guard).1
    have behind : ((registers.pc + 2).toNat : Int) = (registers.pc.toNat + 2) % 65536 := by
      simp
    rw [show pc = _ from fetched.pc_step_jumpRelative met, Word.toNat_add_signExtend, behind,
      Int.emod_add_emod]
  case jump =>
    obtain ⟨guard, stands, met⟩ := Flags.take_iff.1 takes
    exact ((fetches stands (Instruction.decode_guarded guard).2.1).pc_step_jump met).trans word
  case jumpHl =>
    exact (fetches stands rfl).pc_step_jumpHl.trans registers.hl_eq_word
  case call =>
    obtain ⟨guard, stands, met⟩ := Flags.take_iff.1 takes
    have fetched := fetches stands (Instruction.decode_guarded guard).2.2.1
    obtain ⟨pushed, left⟩ := fetched.step_stack (if_pos met)
    have target : pc = Word.join second first := congrArg Registers.pc left
    refine ⟨target.trans word, congrArg Registers.sp left, ?_⟩
    rw [← Word.high_eq_ofNat, ← Word.low_eq_ofNat]
    exact pushed
  case restart =>
    have fetched := fetches stands (Instruction.decode_restart number)
    obtain ⟨pushed, left⟩ := fetched.step_stack rfl
    have target : pc = 8 * .ofNat number := congrArg Registers.pc left
    refine ⟨?_, congrArg Registers.sp left, ?_⟩
    · rw [target]
      simp
      omega
    · rw [← Word.high_eq_ofNat, ← Word.low_eq_ofNat]
      exact pushed
  case ret =>
    rcases takes with takes | stands
    · obtain ⟨guard, stands, met⟩ := Flags.take_iff.1 takes
      exact (fetches stands (Instruction.decode_guarded guard).2.2.2).step_return met
    · exact (fetches stands rfl).step_return rfl
  case straight =>
    have stands : cpu.Fetches memory (Instruction.lookup (load memory registers.pc)) :=
      ⟨running, awake, rfl⟩
    rw [← Instruction.length_lookup]
    refine stands.pc_step (mt (Instruction.lookup_eq_unused_iff _).1 meaningful) ?_
    exact Bool.eq_false_iff.2 fun transfers => stays (Flags.handsOver_of_transfers transfers)

/-- After the boot program the zero flag and the carry are set: JR Z to itself is taken and JR NZ is
not, CALL C is taken and leaves the address behind its three bytes, and CALL NC is not. -/
theorem next_pc_conditions :
    let program (opcode : UInt8) := store (store FlatMemory.blank 0x0100 opcode) 0x0101 0xFE
    postBoot.locked = false ∧ (∀ opcode, ¬ postBoot.Waits (program opcode)) ∧
      (postBoot.step.run (program 0x28)).1.2.registers.pc = 0x0100 ∧
      (postBoot.step.run (program 0x20)).1.2.registers.pc = 0x0102 ∧
      (postBoot.step.run (program 0xDC)).1.2.registers.pc = 0x00FE ∧
      load (postBoot.step.run (program 0xDC)).2 0xFFFD = 0x01 ∧
      load (postBoot.step.run (program 0xDC)).2 0xFFFC = 0x03 ∧
      (postBoot.step.run (program 0xD4)).1.2.registers.pc = 0x0103 := by
  intro program
  have awake (opcode : UInt8) : ¬ postBoot.Waits (program opcode) := not_waits_of_awake rfl
  have stands (opcode : UInt8) : load (program opcode) postBoot.registers.pc = opcode := by
    simp [program, postBoot, Registers.postBoot, FlatMemory.load_store]
  have first (opcode : UInt8) : load (program opcode) (postBoot.registers.pc + 1) = 0xFE := by
    simp [program, postBoot, Registers.postBoot, FlatMemory.load_store]
  have second (opcode : UInt8) : load (program opcode) (postBoot.registers.pc + 2) = 0 := by
    simp [program, postBoot, Registers.postBoot, FlatMemory.load_store]
  have next (opcode : UInt8) (meaningful : opcode ∉ Instruction.unusedOpcodes) :=
    next_pc rfl (awake opcode) ((stands opcode).symm ▸ meaningful)
  simp only [stands, first, second] at next
  obtain ⟨relative, -⟩ := next 0x28 (by decide)
  obtain ⟨-, -, -, -, -, -, straight⟩ := next 0x20 (by decide)
  obtain ⟨-, -, -, call, -⟩ := next 0xDC (by decide)
  obtain ⟨-, -, -, -, -, -, straight'⟩ := next 0xD4 (by decide)
  obtain ⟨target, -, pushed⟩ := call (by decide)
  have reached := relative (by decide)
  have back : (postBoot.step.run (program 0x28)).1.2.registers.pc = 0x0100 :=
    UInt16.toNat_inj.1 (Int.ofNat.inj reached)
  refine ⟨rfl, awake, back, straight (by decide), target, ?_, ?_, straight' (by decide)⟩
  · rw [pushed]
    simp [postBoot, Registers.postBoot, FlatMemory.load_store]
  · rw [pushed]
    simp [postBoot, Registers.postBoot, FlatMemory.load_store]

end Cpu

end

end DotMatrix
