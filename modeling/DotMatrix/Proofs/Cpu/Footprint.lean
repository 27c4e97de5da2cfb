import DotMatrix.Proofs.Cpu.Encoding
import DotMatrix.Proofs.Cpu.FlagRegister
import DotMatrix.Proofs.Memory.Writes

/-!
# What a step leaves alone

An instruction names what it changes: bytes of memory, flags, registers, a latch. The tables of this
module say what each instruction names, one table for each kind of state, and the step of the
processor is shown to change nothing else. Only the program counter is left out, which every step
moves.

Results:
1. `writes_execute`: an instruction writes to the addresses of its table, in that order.
2. `flags_execute`, `get_execute`, `sp_execute`: it keeps the flags, the byte registers and the stack
   pointer that it does not name.
3. `latches_execute`: only the instructions for it change a latch, and none locks up.
4. `Fetches.footprint_step`: a step stays within the footprint of its instruction.
-/

namespace DotMatrix

open Memory

/-! ## Tables -/

/-- The registers with the halves of a pair. -/
def Pair.halves (pair : Pair) : List ByteRegister := [pair.upper, pair.lower]

/-- The addresses that a push writes to. -/
def Registers.pushed (registers : Registers) : List UInt16 := [registers.sp - 1, registers.sp - 2]

namespace Operand

/-- The addresses that a write to an operand writes to. -/
def writes (registers : Registers) : Operand → List UInt16
  | .register _ => []
  | .atHl => [.ofNat (256 * registers.h.toNat + registers.l.toNat)]

/-- The registers that a write to an operand changes. -/
def targets : Operand → List ByteRegister
  | .register name => [name]
  | .atHl => []

end Operand

/-- The byte registers that a write to a word register changes. -/
def WordRegister.targets : WordRegister → List ByteRegister
  | .pair name => name.halves
  | .sp => []

/-- The byte registers that a pop into a register changes. -/
def StackRegister.targets : StackRegister → List ByteRegister
  | .pair name => name.halves
  | .af => [.a]

/-- The registers of a pointer that moves. -/
def Pointer.targets : Pointer → List ByteRegister
  | .bc | .de => []
  | .hlUp | .hlDown => Pair.hl.halves

namespace Place

/-- The address of a place, from the registers and the two bytes behind the opcode: that in BC, in DE
or in HL before it moves, one from $FF00 on, or the word behind the opcode. -/
def effective (registers : Registers) (first second : UInt8) : Place → UInt16
  | .pointer .bc => .ofNat (256 * registers.b.toNat + registers.c.toNat)
  | .pointer .de => .ofNat (256 * registers.d.toNat + registers.e.toNat)
  | .pointer .hlUp | .pointer .hlDown => .ofNat (256 * registers.h.toNat + registers.l.toNat)
  | .high => .ofNat (0xFF00 + first.toNat)
  | .highC => .ofNat (0xFF00 + registers.c.toNat)
  | .absolute => .ofNat (256 * second.toNat + first.toNat)

/-- The registers that finding a place changes. -/
def targets : Place → List ByteRegister
  | .pointer used => used.targets
  | .high | .highC | .absolute => []

end Place

namespace BitInstruction

/-- The addresses that a bit instruction writes to. -/
def writes (registers : Registers) : BitInstruction → List UInt16
  | .test _ _ => []
  | .shift _ operand | .reset _ operand | .set _ operand => operand.writes registers

/-- The mask of the flags that a bit instruction keeps. -/
def keptFlags : BitInstruction → UInt8
  | .shift _ _ => 0
  | .test _ _ => Flags.carryMask.bits
  | .reset _ _ | .set _ _ => 0xFF

/-- The byte registers that a bit instruction changes. -/
def targets : BitInstruction → List ByteRegister
  | .test _ _ => []
  | .shift _ operand | .reset _ operand | .set _ operand => operand.targets

end BitInstruction

namespace Instruction

/-- The addresses that an instruction writes to, in order, from the registers before it and the two
bytes behind its opcode. -/
def writes (registers : Registers) (first second : UInt8) : Instruction → List UInt16
  | .load target _ => target.writes registers
  | .inc operand | .dec operand => operand.writes registers
  | .storeA place => [place.effective registers first second]
  | .storeSp =>
    let address := Place.absolute.effective registers first second
    [address, address + 1]
  | .push _ | .restart _ => registers.pushed
  | .call guard => if Condition.met guard registers.f then registers.pushed else []
  | .extended => (BitInstruction.lookup first).writes registers
  | _ => []

/-- The mask of the bits of the flag register that an instruction keeps, from the byte behind its
opcode; $FF is the whole register. -/
def keptFlags (first : UInt8) : Instruction → UInt8
  | .hlFromSp | .addSp | .arithmetic _ _ | .rotateA _ | .pop .af => 0
  | .inc _ | .dec _ => Flags.carryMask.bits
  | .cpl => Flags.zeroMask.bits ||| Flags.carryMask.bits
  | .addHl _ | .scf | .ccf => Flags.zeroMask.bits
  | .daa => Flags.subtractMask.bits
  | .extended => (BitInstruction.lookup first).keptFlags
  | _ => 0xFF

/-- The byte registers that an instruction changes, from the byte behind its opcode. -/
def targets (first : UInt8) : Instruction → List ByteRegister
  | .load target _ => target.targets
  | .inc operand | .dec operand => operand.targets
  | .loadWord register | .incWord register | .decWord register => register.targets
  | .storeA place => place.targets
  | .loadA place => .a :: place.targets
  | .hlFromSp | .addHl _ => Pair.hl.halves
  | .arithmetic .cp _ => []
  | .arithmetic _ _ | .rotateA _ | .daa | .cpl => [.a]
  | .pop register => register.targets
  | .extended => (BitInstruction.lookup first).targets
  | _ => []

/-- Whether an instruction changes the stack pointer, from the flags before it. -/
def movesStack (flags : Flags) : Instruction → Bool
  | .loadWord .sp | .incWord .sp | .decWord .sp | .spFromHl | .addSp => true
  | .push _ | .pop _ | .restart _ | .reti => true
  | .call guard | .ret guard => Condition.met guard flags
  | _ => false

/-- What an instruction turns the interrupt switch to, if it does. -/
def interruptSwitch : Instruction → Option Bool
  | .ei | .reti => some true
  | .di => some false
  | _ => none

end Instruction

/-! ## Addresses that the parts of an instruction write to -/

section

variable {μ : Type} [Memory μ]

namespace Registers

variable (registers : Registers) (memory : μ)

@[simp] theorem writes_fetch : registers.fetch.writes memory = [] := rfl

@[simp] theorem writes_fetchWord : registers.fetchWord.writes memory = [] := rfl

@[simp] theorem writes_pop : registers.pop.writes memory = [] := rfl

@[simp] theorem writes_push (word : UInt16) :
    (registers.push word).writes memory = registers.pushed := rfl

end Registers

@[simp] theorem Bus.writes_writeWord (address word : UInt16) (memory : μ) :
    (Bus.writeWord address word).writes memory = [address, address + 1] := rfl

@[simp] theorem Operand.writes_read (operand : Operand) (registers : Registers) (memory : μ) :
    (operand.read registers).writes memory = [] := by
  cases operand <;> rfl

@[simp] theorem Operand.writes_write (operand : Operand) (registers : Registers) (value : UInt8)
    (memory : μ) : (operand.write registers value).writes memory = operand.writes registers := by
  cases operand with
  | register name => rfl
  | atHl => exact congrArg ([·]) registers.hl_eq_word

@[simp] theorem Source.writes_read (source : Source) (registers : Registers) (memory : μ) :
    (source.read registers).writes memory = [] := by
  cases source with
  | operand place => simp [read]
  | immediate => rfl

@[simp] theorem Place.writes_address (place : Place) (registers : Registers) (memory : μ) :
    (place.address registers).writes memory = [] := by
  cases place <;> simp [address]

@[simp] theorem Place.address_eq_effective (place : Place) (registers : Registers) (memory : μ) :
    ((place.address registers).run memory).1.1 =
      place.effective registers (load memory registers.pc) (load memory (registers.pc + 1)) := by
  cases place with
  | pointer used =>
    cases used with
    | bc => exact Word.join_eq_ofNat registers.b registers.c
    | de => exact Word.join_eq_ofNat registers.d registers.e
    | hlUp | hlDown => exact registers.hl_eq_word
  | high => exact Word.join_eq_ofNat 0xFF _
  | highC => exact Word.join_eq_ofNat 0xFF registers.c
  | absolute =>
    rw [address, Registers.run_fetchWord]
    exact Word.join_eq_ofNat _ _

/-- The byte at HL stays where it is when only flags, stack pointer and program counter change. -/
@[simp] theorem Operand.writes_mk (operand : Operand) (registers : Registers) (flags : Flags)
    (sp pc : UInt16) :
    operand.writes ⟨registers.a, flags, registers.b, registers.c, registers.d, registers.e,
      registers.h, registers.l, sp, pc⟩ = operand.writes registers := by
  cases operand <;> rfl

@[simp] theorem Operand.writes_source (operand : Operand) (source : Source)
    (registers : Registers) (memory : μ) :
    operand.writes ((source.read registers).run memory).1.2 = operand.writes registers := by
  cases source with
  | operand place => simp [Source.read]
  | immediate => exact operand.writes_mk registers registers.f registers.sp _

/-! ## Registers that the parts of an instruction keep -/

namespace Registers

variable {registers : Registers} {register : ByteRegister}

/-- The byte registers are apart from the flags, the stack pointer and the program counter. -/
@[simp] theorem get_mk (registers : Registers) (flags : Flags) (sp pc : UInt16)
    (register : ByteRegister) :
    Registers.get ⟨registers.a, flags, registers.b, registers.c, registers.d, registers.e,
      registers.h, registers.l, sp, pc⟩ register = registers.get register := by
  cases register <;> rfl

theorem get_mk_of_ne (other : register ≠ .a) (a : UInt8) (flags : Flags) (sp pc : UInt16) :
    Registers.get ⟨a, flags, registers.b, registers.c, registers.d, registers.e, registers.h,
      registers.l, sp, pc⟩ register = registers.get register := by
  cases register with
  | a => exact absurd rfl other
  | _ => rfl

theorem get_setPair_of_not_mem {pair : Pair} (other : register ∉ pair.halves) (word : UInt16) :
    (registers.setPair pair word).get register = registers.get register := by
  simp only [Pair.halves, List.mem_cons, List.not_mem_nil, or_false, not_or] at other
  rw [setPair, get_set, if_neg other.2, get_set, if_neg other.1]

@[simp] theorem sp_set (registers : Registers) (register : ByteRegister) (value : UInt8) :
    (registers.set register value).sp = registers.sp := by
  cases register <;> rfl

@[simp] theorem sp_setPair (registers : Registers) (pair : Pair) (word : UInt16) :
    (registers.setPair pair word).sp = registers.sp := by
  rw [setPair, sp_set, sp_set]

end Registers

section

variable {registers : Registers} {register : ByteRegister}

theorem Operand.get_write {operand : Operand} (other : register ∉ operand.targets)
    (value : UInt8) (memory : μ) :
    ((operand.write registers value).run memory).1.get register = registers.get register := by
  cases operand with
  | register name =>
    have apart : register ≠ name := fun same => other (List.mem_singleton.2 same)
    exact (registers.get_set name register value).trans (if_neg apart)
  | atHl => rfl

@[simp] theorem Operand.sp_write (operand : Operand) (registers : Registers) (value : UInt8)
    (memory : μ) : ((operand.write registers value).run memory).1.sp = registers.sp := by
  cases operand with
  | register name => exact registers.sp_set name value
  | atHl => rfl

@[simp] theorem Source.get_read (source : Source) (registers : Registers) (memory : μ)
    (register : ByteRegister) :
    ((source.read registers).run memory).1.2.get register = registers.get register := by
  cases source with
  | operand place => simp [read]
  | immediate => simp [read]

@[simp] theorem Source.sp_read (source : Source) (registers : Registers) (memory : μ) :
    ((source.read registers).run memory).1.2.sp = registers.sp := by
  cases source with
  | operand place => simp [read]
  | immediate => rfl

theorem WordRegister.get_set {target : WordRegister} (other : register ∉ target.targets)
    (word : UInt16) : (target.set registers word).get register = registers.get register := by
  cases target with
  | pair name => exact Registers.get_setPair_of_not_mem other word
  | sp => exact registers.get_mk registers.f word registers.pc register

theorem StackRegister.get_set {target : StackRegister} (other : register ∉ target.targets)
    (word : UInt16) : (target.set registers word).get register = registers.get register := by
  cases target with
  | pair name => exact Registers.get_setPair_of_not_mem other word
  | af =>
    have apart : register ≠ .a := fun same => other (List.mem_singleton.2 same)
    exact Registers.get_mk_of_ne apart _ _ _ _

theorem Pointer.get_advance {pointer : Pointer} (other : register ∉ pointer.targets) :
    (pointer.advance registers).get register = registers.get register := by
  cases pointer with
  | bc | de => rfl
  | hlUp | hlDown => exact Registers.get_setPair_of_not_mem other _

@[simp] theorem Pointer.sp_advance (pointer : Pointer) (registers : Registers) :
    (pointer.advance registers).sp = registers.sp := by
  cases pointer <;> simp [advance, Registers.incrementPair, Registers.decrementPair]

theorem Place.get_address {place : Place} (other : register ∉ place.targets) (memory : μ) :
    ((place.address registers).run memory).1.2.get register = registers.get register := by
  cases place with
  | pointer used => exact Pointer.get_advance other
  | high | highC | absolute => simp [address]

@[simp] theorem Place.sp_address (place : Place) (registers : Registers) (memory : μ) :
    ((place.address registers).run memory).1.2.sp = registers.sp := by
  cases place <;> simp [address]

end

/-! ## Flags that the operations keep -/

namespace Alu

variable (flags : Flags)

open Flags

@[simp] theorem increment_keeps (value : UInt8) :
    (increment flags value).2.bits &&& carryMask.bits = flags.bits &&& carryMask.bits := by
  simp (disch := decide) only [increment, withZero, withSubtract, withHalfCarry,
    BitField.bits_set_and]

@[simp] theorem decrement_keeps (value : UInt8) :
    (decrement flags value).2.bits &&& carryMask.bits = flags.bits &&& carryMask.bits := by
  simp (disch := decide) only [decrement, withZero, withSubtract, withHalfCarry,
    BitField.bits_set_and]

@[simp] theorem testBit_keeps (bit : Fin 8) (value : UInt8) :
    (testBit flags bit value).bits &&& carryMask.bits = flags.bits &&& carryMask.bits := by
  simp (disch := decide) only [testBit, withZero, withSubtract, withHalfCarry,
    BitField.bits_set_and]

@[simp] theorem addWords_keeps (word value : UInt16) :
    (addWords flags word value).2.bits &&& zeroMask.bits = flags.bits &&& zeroMask.bits := by
  simp (disch := decide) only [addWords, withSubtract, withHalfCarry, withCarry,
    BitField.bits_set_and]

@[simp] theorem decimalAdjust_keeps (a : UInt8) :
    (decimalAdjust flags a).2.bits &&& subtractMask.bits = flags.bits &&& subtractMask.bits := by
  simp (disch := decide) only [decimalAdjust, withZero, withHalfCarry, withCarry,
    BitField.bits_set_and]

end Alu

/-! ## Instructions -/

/-- The program counter has no part in where a bit instruction writes to. -/
theorem BitInstruction.writes_withPc (instruction : BitInstruction) (registers : Registers)
    (pc : UInt16) :
    instruction.writes { registers with pc := pc } = instruction.writes registers := by
  cases instruction with
  | test => rfl
  | shift shift operand | reset bit operand | set bit operand =>
    exact operand.writes_mk registers registers.f registers.sp pc

theorem Instruction.writes_withPc (instruction : Instruction) (registers : Registers)
    (first second : UInt8) (pc : UInt16) :
    instruction.writes { registers with pc := pc } first second =
      instruction.writes registers first second := by
  cases instruction with
  | load target source => exact target.writes_mk registers registers.f registers.sp pc
  | inc operand | dec operand => exact operand.writes_mk registers registers.f registers.sp pc
  | storeA place =>
    cases place with
    | pointer used => cases used <;> rfl
    | _ => rfl
  | extended => exact (BitInstruction.lookup first).writes_withPc registers pc
  | _ => rfl

namespace Cpu

theorem writes_executeBit (registers : Registers) (instruction : BitInstruction) (memory : μ) :
    (executeBit registers instruction).writes memory = instruction.writes registers := by
  cases instruction <;> simp [executeBit, BitInstruction.writes]

/-- An instruction writes to the addresses that it names. -/
theorem writes_execute (cpu : Cpu) (instruction : Instruction) (memory : μ) :
    (cpu.execute instruction).writes memory =
      instruction.writes cpu.registers (load memory cpu.registers.pc)
        (load memory (cpu.registers.pc + 1)) := by
  cases instruction with
  | call guard =>
    by_cases met : Condition.met guard cpu.registers.f <;>
      simp [execute, Instruction.writes, Registers.pushed, met]
  | jumpRelative guard | jump guard | ret guard =>
    by_cases met : Condition.met guard cpu.registers.f <;> simp [execute, Instruction.writes, met]
  | extended =>
    simp [execute, Instruction.writes, writes_executeBit, BitInstruction.writes_withPc]
  | storeSp => simp [execute, Instruction.writes, Place.effective, Word.join_eq_ofNat]
  | _ => simp [execute, Instruction.writes]

theorem flags_executeBit (registers : Registers) (instruction : BitInstruction) (memory : μ) :
    ((executeBit registers instruction).run memory).1.f.bits &&& instruction.keptFlags =
      registers.f.bits &&& instruction.keptFlags := by
  cases instruction <;> simp [executeBit, BitInstruction.keptFlags]

/-- An instruction keeps the flags of its mask. -/
theorem flags_execute (cpu : Cpu) (instruction : Instruction) (memory : μ) :
    let kept := instruction.keptFlags (load memory cpu.registers.pc)
    ((cpu.execute instruction).run memory).1.2.registers.f.bits &&& kept =
      cpu.registers.f.bits &&& kept := by
  cases instruction with
  | jumpRelative guard | jump guard | call guard | ret guard =>
    by_cases met : Condition.met guard cpu.registers.f <;> simp [execute, continueWith, met]
  | cpl | scf | ccf =>
    simp (disch := decide) [execute, continueWith, setResult, Instruction.keptFlags,
      Flags.withSubtract, Flags.withHalfCarry, Flags.withCarry, BitField.bits_set_and]
  | extended =>
    have kept := flags_executeBit { cpu.registers with pc := cpu.registers.pc + 1 }
      (BitInstruction.lookup (load memory cpu.registers.pc)) memory
    simpa [execute, Instruction.keptFlags] using kept
  | pop register =>
    cases register <;> simp [execute, continueWith, StackRegister.set, Instruction.keptFlags]
  | _ => simp [execute, continueWith, setResult, Instruction.keptFlags]

theorem get_executeBit (registers : Registers) {instruction : BitInstruction}
    {register : ByteRegister} (other : register ∉ instruction.targets) (memory : μ) :
    ((executeBit registers instruction).run memory).1.get register = registers.get register := by
  cases instruction with
  | test bit operand => simp [executeBit]
  | shift shift operand | reset bit operand | set bit operand =>
    simp [executeBit, Operand.get_write other]

/-- An instruction keeps the byte registers that it does not name. -/
theorem get_execute (cpu : Cpu) (memory : μ) {instruction : Instruction} {register : ByteRegister}
    (other : register ∉ instruction.targets (load memory cpu.registers.pc)) :
    ((cpu.execute instruction).run memory).1.2.registers.get register =
      cpu.registers.get register := by
  cases instruction with
  | jumpRelative guard | jump guard | call guard | ret guard =>
    by_cases met : Condition.met guard cpu.registers.f <;> simp [execute, continueWith, met]
  | load target source | inc operand | dec operand =>
    simp [execute, continueWith, Operand.get_write other]
  | loadWord target | incWord target | decWord target =>
    simp [execute, continueWith, WordRegister.get_set other]
  | storeA place => simp [execute, continueWith, Place.get_address other]
  | loadA place =>
    have apart : register ≠ .a := fun same => other (same ▸ List.mem_cons_self)
    have still : register ∉ place.targets := fun member => other (.tail _ member)
    simp [execute, continueWith, Registers.get_mk_of_ne apart, Place.get_address still]
  | hlFromSp | addHl target =>
    simp [execute, continueWith, Registers.get_setPair_of_not_mem other]
  | arithmetic operation source =>
    cases operation with
    | cp => simp [execute, continueWith, setResult, Alu.combine]
    | _ =>
      have apart : register ≠ .a := fun same => other (List.mem_singleton.2 same)
      simp [execute, continueWith, setResult, Registers.get_mk_of_ne apart]
  | rotateA | daa | cpl =>
    have apart : register ≠ .a := fun same => other (List.mem_singleton.2 same)
    exact Registers.get_mk_of_ne apart _ _ _ _
  | pop target => simp [execute, continueWith, StackRegister.get_set other]
  | extended =>
    have outside : register ∉ (BitInstruction.lookup (load memory cpu.registers.pc)).targets :=
      other
    have kept := get_executeBit { cpu.registers with pc := cpu.registers.pc + 1 } outside memory
    simpa [execute] using kept
  | _ => simp [execute, continueWith]

@[simp] theorem sp_executeBit (registers : Registers) (instruction : BitInstruction) (memory : μ) :
    ((executeBit registers instruction).run memory).1.sp = registers.sp := by
  cases instruction <;> simp [executeBit]

/-- An instruction keeps the stack pointer unless it moves it. -/
theorem sp_execute (cpu : Cpu) (memory : μ) {instruction : Instruction}
    (still : instruction.movesStack cpu.registers.f = false) :
    ((cpu.execute instruction).run memory).1.2.registers.sp = cpu.registers.sp := by
  cases instruction with
  | jumpRelative guard | jump guard =>
    by_cases met : Condition.met guard cpu.registers.f <;> simp [execute, continueWith, met]
  | call guard | ret guard =>
    have unmet : Condition.met guard cpu.registers.f = false := still
    simp [execute, continueWith, unmet]
  | loadWord register | incWord register | decWord register =>
    cases register with
    | pair name => simp [execute, continueWith, WordRegister.set]
    | sp => exact Bool.noConfusion still
  | spFromHl | addSp | push | pop | restart | reti => exact Bool.noConfusion still
  | _ => simp [execute, continueWith, setResult]

/-- Only the instructions for it change a latch. -/
theorem latches_execute (cpu : Cpu) (instruction : Instruction) (memory : μ) :
    let after := ((cpu.execute instruction).run memory).1.2
    after.interruptsEnabled = instruction.interruptSwitch.getD cpu.interruptsEnabled ∧
    after.stopped = (cpu.stopped || instruction == .stop) ∧
    after.halted = (cpu.halted || instruction == .halt) ∧
    after.haltGating = cpu.haltGating ∧
    after.locked = cpu.locked := by
  cases instruction with
  | jumpRelative guard | jump guard | call guard | ret guard =>
    by_cases met : Condition.met guard cpu.registers.f <;>
      simp [execute, continueWith, Instruction.interruptSwitch, met]
  | _ => simp [execute, continueWith, Instruction.interruptSwitch]

end Cpu

/-! ## Steps -/

/-- The processor in state `after` differs from the one in state `before` only in what the executed
instruction names, whose opcode the byte `first` follows. The program counter is left out. -/
structure Instruction.ChangesOnly (instruction : Instruction) (first : UInt8)
    (before after : Cpu) : Prop where
  /-- The flags of the mask are kept. -/
  flags : after.registers.f.bits &&& instruction.keptFlags first =
    before.registers.f.bits &&& instruction.keptFlags first
  /-- The other byte registers are kept. -/
  registers : ∀ register, register ∉ instruction.targets first →
    after.registers.get register = before.registers.get register
  stackPointer : instruction.movesStack before.registers.f = false →
    after.registers.sp = before.registers.sp
  interruptsEnabled :
    after.interruptsEnabled = instruction.interruptSwitch.getD before.interruptsEnabled
  stopped : after.stopped = (before.stopped || instruction == .stop)
  /-- A halted processor that waits was woken by the time it executes something. -/
  halted : after.halted = ((before.halted && !before.haltGating) || instruction == .halt)
  haltGating : after.haltGating = before.haltGating
  locked : after.locked = before.locked

namespace Cpu

variable {cpu : Cpu} {memory : μ} {instruction : Instruction}

theorem Fetches.writes_step (fetches : cpu.Fetches memory instruction)
    (valid : instruction ≠ .unused) :
    cpu.step.writes memory =
      instruction.writes cpu.registers (load memory (cpu.registers.pc + 1))
        (load memory (cpu.registers.pc + 2)) := by
  have silent : (cpu.polls.filter Access.isWrite).map Access.address = [] := by
    rw [polls]
    split <;> rfl
  have executed : cpu.step.writes memory = (cpu.fetched.execute instruction).writes memory := by
    rw [Transaction.writes, fetches.accesses_step valid, List.filter_append, List.map_append,
      silent]
    rfl
  have next : cpu.registers.pc + 1 + 1 = cpu.registers.pc + 2 := UInt16.add_assoc _ _ _
  rw [executed, writes_execute, fetched, Instruction.writes_withPc, next]

theorem Fetches.changesOnly_step (fetches : cpu.Fetches memory instruction)
    (valid : instruction ≠ .unused) :
    instruction.ChangesOnly (load memory (cpu.registers.pc + 1)) cpu
      (cpu.step.run memory).1.2 := by
  obtain ⟨interruptsEnabled, stopped, halted, haltGating, locked⟩ :=
    cpu.fetched.latches_execute instruction memory
  have same (register : ByteRegister) :
      cpu.fetched.registers.get register = cpu.registers.get register :=
    cpu.registers.get_mk cpu.registers.f cpu.registers.sp _ register
  rw [fetches.run_step valid]
  exact {
    flags := cpu.fetched.flags_execute instruction memory
    registers := fun register other => (cpu.fetched.get_execute memory other).trans (same register)
    stackPointer := fun still => cpu.fetched.sp_execute memory still
    interruptsEnabled, stopped, halted, haltGating, locked }

/-- A step that executes an instruction writes to the addresses that the instruction names, once each
and in that order, and to no others; every byte at another place keeps its value. It changes no flag,
no register and no latch but those that the instruction names. -/
theorem Fetches.footprint_step [PlainMemory μ] (fetches : cpu.Fetches memory instruction)
    (valid : instruction ≠ .unused) :
    let first := load memory (cpu.registers.pc + 1)
    let second := load memory (cpu.registers.pc + 2)
    let places := instruction.writes cpu.registers first second
    let after := cpu.step.run memory
    cpu.step.writes memory = places ∧
    (∀ address,
      (∀ place ∈ places, PlainMemory.canonical μ place ≠ PlainMemory.canonical μ address) →
        load after.2 address = load memory address) ∧
    instruction.ChangesOnly first cpu after.1.2 := by
  intro first second places after
  have written : cpu.step.writes memory = places := fetches.writes_step valid
  refine ⟨written, fun address apart => ?kept, fetches.changesOnly_step valid⟩
  case kept =>
    rw [← written] at apart
    exact PlainMemory.load_run_of_apart apart

/-- After the boot program, LD (HL+),A writes to $014D alone; it names HL and nothing else. -/
theorem footprint_step_store_up :
    let memory := store FlatMemory.blank 0x0100 0x22
    postBoot.Fetches memory (.storeA (.pointer .hlUp)) ∧
      postBoot.step.writes memory = [0x014D] ∧
      (∀ address, address ≠ 0x014D →
        load (postBoot.step.run memory).2 address = load memory address) ∧
      Instruction.ChangesOnly (.storeA (.pointer .hlUp)) (load memory 0x0101) postBoot
        (postBoot.step.run memory).1.2 := by
  intro memory
  have stands : load memory postBoot.registers.pc = 0x22 := by
    simp [memory, postBoot, Registers.postBoot, FlatMemory.load_store]
  have fetches : postBoot.Fetches memory (.storeA (.pointer .hlUp)) :=
    fetches_of_opcode rfl rfl stands (by decide)
  obtain ⟨written, kept, changes⟩ := fetches.footprint_step (by decide)
  refine ⟨fetches, written, fun address apart => kept address fun place named same => ?_, changes⟩
  have only : place = 0x014D := List.mem_singleton.1 named
  exact apart (same.symm.trans only)

end Cpu

end

end DotMatrix
