import DotMatrix.Bus.Memory
import DotMatrix.Cpu.Step

/-!
# Operands and the stack

What the parts of an instruction do when they run on a memory: what they return, which bytes they
move and how many. Reading never changes the memory, and of the registers only the flags' own
operations change the flags. Instructions are composed of these parts, so a fact about every
instruction is a case analysis that simplifies with the lemmas of this module.
-/

namespace DotMatrix

open Memory

variable {μ : Type} [Memory μ]

/-! ## Fetching and the stack -/

namespace Registers

@[simp] theorem run_fetch (registers : Registers) (memory : μ) :
    registers.fetch.run memory =
      ((load memory registers.pc, { registers with pc := registers.pc + 1 }), memory) := rfl

@[simp] theorem accesses_fetch (registers : Registers) (memory : μ) :
    registers.fetch.accesses memory = [.read registers.pc] := rfl

@[simp] theorem run_fetchWord (registers : Registers) (memory : μ) :
    registers.fetchWord.run memory =
      ((Word.join (load memory (registers.pc + 1)) (load memory registers.pc),
        { registers with pc := registers.pc + 2 }), memory) := by
  have twice : registers.pc + 1 + 1 = registers.pc + 2 := UInt16.add_assoc _ _ _
  rw [← twice]
  rfl

@[simp] theorem accesses_fetchWord (registers : Registers) (memory : μ) :
    registers.fetchWord.accesses memory = [.read registers.pc, .read (registers.pc + 1)] := rfl

@[simp] theorem run_push (registers : Registers) (word : UInt16) (memory : μ) :
    (registers.push word).run memory =
      ({ registers with sp := registers.sp - 2 },
        store (store memory (registers.sp - 1) (Word.high word)) (registers.sp - 2)
          (Word.low word)) := rfl

@[simp] theorem accesses_push (registers : Registers) (word : UInt16) (memory : μ) :
    (registers.push word).accesses memory =
      [.write (registers.sp - 1) (Word.high word), .write (registers.sp - 2) (Word.low word)] := rfl

@[simp] theorem run_pop (registers : Registers) (memory : μ) :
    registers.pop.run memory =
      ((Word.join (load memory (registers.sp + 1)) (load memory registers.sp),
        { registers with sp := registers.sp + 2 }), memory) := rfl

@[simp] theorem accesses_pop (registers : Registers) (memory : μ) :
    registers.pop.accesses memory = [.read registers.sp, .read (registers.sp + 1)] := rfl

@[simp] theorem f_set (registers : Registers) (register : ByteRegister) (value : UInt8) :
    (registers.set register value).f = registers.f := by
  cases register <;> rfl

@[simp] theorem f_setPair (registers : Registers) (pair : Pair) (word : UInt16) :
    (registers.setPair pair word).f = registers.f := by
  rw [setPair, f_set, f_set]

end Registers

@[simp] theorem Bus.accesses_writeWord (address word : UInt16) (memory : μ) :
    (Bus.writeWord address word).accesses memory =
      [.write address (Word.low word), .write (address + 1) (Word.high word)] := rfl

/-! ## Operands -/

@[simp] theorem Operand.memory_read (operand : Operand) (registers : Registers) (memory : μ) :
    ((operand.read registers).run memory).2 = memory := by
  cases operand <;> rfl

@[simp] theorem Operand.length_accesses_read (operand : Operand) (registers : Registers)
    (memory : μ) : ((operand.read registers).accesses memory).length = operand.cycles := by
  cases operand <;> rfl

@[simp] theorem Operand.length_accesses_write (operand : Operand) (registers : Registers)
    (value : UInt8) (memory : μ) :
    ((operand.write registers value).accesses memory).length = operand.cycles := by
  cases operand <;> rfl

@[simp] theorem Operand.f_write (operand : Operand) (registers : Registers) (value : UInt8)
    (memory : μ) : ((operand.write registers value).run memory).1.f = registers.f := by
  cases operand with
  | register name => exact registers.f_set name value
  | atHl => rfl

@[simp] theorem Source.memory_read (source : Source) (registers : Registers) (memory : μ) :
    ((source.read registers).run memory).2 = memory := by
  cases source with
  | operand place => simp [read]
  | immediate => rfl

@[simp] theorem Source.length_accesses_read (source : Source) (registers : Registers) (memory : μ) :
    ((source.read registers).accesses memory).length = source.cycles := by
  cases source with
  | operand place => simp [read, cycles]
  | immediate => rfl

@[simp] theorem Source.f_read (source : Source) (registers : Registers) (memory : μ) :
    ((source.read registers).run memory).1.2.f = registers.f := by
  cases source with
  | operand place => simp [read]
  | immediate => rfl

/-! ## Words and places -/

@[simp] theorem WordRegister.f_set (register : WordRegister) (registers : Registers)
    (word : UInt16) : (register.set registers word).f = registers.f := by
  cases register with
  | pair name => exact registers.f_setPair name word
  | sp => rfl

@[simp] theorem Pointer.f_advance (pointer : Pointer) (registers : Registers) :
    (pointer.advance registers).f = registers.f := by
  cases pointer <;> simp [advance, Registers.incrementPair, Registers.decrementPair]

@[simp] theorem Place.memory_address (place : Place) (registers : Registers) (memory : μ) :
    ((place.address registers).run memory).2 = memory := by
  cases place <;> simp [address]

@[simp] theorem Place.length_accesses_address (place : Place) (registers : Registers)
    (memory : μ) : ((place.address registers).accesses memory).length = place.addressCycles := by
  cases place <;> simp [address, addressCycles]

@[simp] theorem Place.f_address (place : Place) (registers : Registers) (memory : μ) :
    ((place.address registers).run memory).1.2.f = registers.f := by
  cases place <;> simp [address]

end DotMatrix
