import DotMatrix.Proofs.Cpu.Operands

/-!
# What the numbers in an opcode stand for

Three bits of an opcode name a byte, two bits a word or a condition. What each number stands for is
written down here on the fields of the registers, and independently of how the processor finds it: a
word is a number made of two bytes, a condition the state of one flag. The processor's operands, word
registers and conditions are then shown to be the ones with these numbers.

Results:
1. `Word.join_eq_ofNat`, `Word.high_eq_ofNat`, `Word.low_eq_ofNat`: words and bytes as numbers.
2. `WordRegister.get_select`, `WordRegister.set_select`: words by number.
3. `Operand.value_select`, `Operand.put_select`: bytes by number.
4. `Condition.holds_select`: conditions by number.
5. `Instruction.lookup_eq_unused_iff`: the opcodes without a meaning.
-/

namespace DotMatrix

open Memory

/-! ## Words -/

namespace Word

theorem join_eq_ofNat (high low : UInt8) :
    join high low = .ofNat (256 * high.toNat + low.toNat) := by
  rw [← toNat_join, UInt16.ofNat_toNat]

theorem high_eq_ofNat (word : UInt16) : high word = .ofNat (word.toNat / 256) := by
  rw [← toNat_high, UInt8.ofNat_toNat]

theorem low_eq_ofNat (word : UInt16) : low word = .ofNat (word.toNat % 256) := by
  rw [← toNat_low, UInt8.ofNat_toNat]

end Word

namespace Registers

/-- The word with a number from 0 to 3: that in B and C, in D and E or in H and L, the upper byte
first, or the stack pointer. -/
def word (registers : Registers) : Fin 4 → UInt16
  | 0 => .ofNat (256 * registers.b.toNat + registers.c.toNat)
  | 1 => .ofNat (256 * registers.d.toNat + registers.e.toNat)
  | 2 => .ofNat (256 * registers.h.toNat + registers.l.toNat)
  | 3 => registers.sp

/-- The registers with the word of a number replaced. -/
def withWord (registers : Registers) (number : Fin 4) (word : UInt16) : Registers :=
  let high := .ofNat (word.toNat / 256)
  let low := .ofNat (word.toNat % 256)
  match number with
  | 0 => { registers with b := high, c := low }
  | 1 => { registers with d := high, e := low }
  | 2 => { registers with h := high, l := low }
  | 3 => { registers with sp := word }

end Registers

namespace WordRegister

/-- The word register with a number from 0 to 3. -/
def select : Fin 4 → WordRegister
  | 0 => .pair .bc
  | 1 => .pair .de
  | 2 => .pair .hl
  | 3 => .sp

variable (registers : Registers)

theorem get_select : ∀ number : Fin 4, (select number).get registers = registers.word number
  | 0 => Word.join_eq_ofNat registers.b registers.c
  | 1 => Word.join_eq_ofNat registers.d registers.e
  | 2 => Word.join_eq_ofNat registers.h registers.l
  | 3 => rfl

theorem set_select (number : Fin 4) (word : UInt16) :
    (select number).set registers word = registers.withWord number word := by
  have high := Word.high_eq_ofNat word
  have low := Word.low_eq_ofNat word
  match number with
  | 0 | 1 | 2 =>
    simp only [set, select, Registers.setPair, Registers.withWord, high, low]
    rfl
  | 3 => rfl

end WordRegister

namespace Registers

theorem hl_eq_word (registers : Registers) : registers.hl = registers.word 2 :=
  WordRegister.get_select registers 2

theorem setHl_eq_withWord (registers : Registers) (word : UInt16) :
    registers.setHl word = registers.withWord 2 word :=
  WordRegister.set_select registers 2 word

end Registers

/-! ## Bytes -/

section

variable {μ : Type} [Memory μ]

namespace Operand

/-- The byte that an operand stands for. -/
def value (registers : Registers) (memory : μ) : Operand → UInt8
  | .register name => registers.get name
  | .atHl => load memory registers.hl

/-- The registers and the memory with a byte in the place of an operand. -/
def put (registers : Registers) (memory : μ) (byte : UInt8) : Operand → Registers × μ
  | .register name => (registers.set name byte, memory)
  | .atHl => (registers, store memory registers.hl byte)

variable (operand : Operand) (registers : Registers) (memory : μ)

theorem run_read :
    (operand.read registers).run memory = (operand.value registers memory, memory) := by
  cases operand <;> rfl

theorem run_write (byte : UInt8) :
    (operand.write registers byte).run memory = operand.put registers memory byte := by
  cases operand <;> rfl

/-- Neither the stack pointer nor the program counter has a part in an operand. -/
theorem value_mk (flags : Flags) (sp pc : UInt16) :
    operand.value ⟨registers.a, flags, registers.b, registers.c, registers.d, registers.e,
      registers.h, registers.l, sp, pc⟩ memory = operand.value registers memory := by
  cases operand with
  | register name => cases name <;> rfl
  | atHl => rfl

end Operand

namespace Registers

/-- The byte with a number from 0 to 7: a register, or the byte in memory at HL. -/
def byte (registers : Registers) (memory : μ) : Fin 8 → UInt8
  | 0 => registers.b
  | 1 => registers.c
  | 2 => registers.d
  | 3 => registers.e
  | 4 => registers.h
  | 5 => registers.l
  | 6 => load memory (registers.word 2)
  | 7 => registers.a

/-- The registers and the memory with the byte of a number replaced. -/
def withByte (registers : Registers) (memory : μ) (byte : UInt8) : Fin 8 → Registers × μ
  | 0 => ({ registers with b := byte }, memory)
  | 1 => ({ registers with c := byte }, memory)
  | 2 => ({ registers with d := byte }, memory)
  | 3 => ({ registers with e := byte }, memory)
  | 4 => ({ registers with h := byte }, memory)
  | 5 => ({ registers with l := byte }, memory)
  | 6 => (registers, store memory (registers.word 2) byte)
  | 7 => ({ registers with a := byte }, memory)

end Registers

namespace Operand

variable (registers : Registers) (memory : μ)

theorem value_select : ∀ place : Fin 8,
    (select place).value registers memory = registers.byte memory place
  | 0 | 1 | 2 | 3 | 4 | 5 | 7 => rfl
  | 6 => congrArg (load memory) registers.hl_eq_word

theorem put_select (byte : UInt8) : ∀ place : Fin 8,
    (select place).put registers memory byte = registers.withByte memory byte place
  | 0 | 1 | 2 | 3 | 4 | 5 | 7 => rfl
  | 6 => congrArg (fun address => (registers, store memory address byte)) registers.hl_eq_word

end Operand

end

/-! ## Conditions -/

/-- The condition with a number from 0 to 3: the zero flag clear or set, the carry clear or set. -/
def Flags.Meets (flags : Flags) : Fin 4 → Prop
  | 0 => flags.zero = false
  | 1 => flags.zero = true
  | 2 => flags.carry = false
  | 3 => flags.carry = true

instance (flags : Flags) : DecidablePred flags.Meets
  | 0 | 1 => inferInstanceAs (Decidable (flags.zero = _))
  | 2 | 3 => inferInstanceAs (Decidable (flags.carry = _))

namespace Condition

/-- The condition with a number from 0 to 3. -/
def select : Fin 4 → Condition
  | 0 => .notZero
  | 1 => .zero
  | 2 => .notCarry
  | 3 => .carry

/-- The number of a condition. -/
def number : Condition → Fin 4
  | .notZero => 0
  | .zero => 1
  | .notCarry => 2
  | .carry => 3

theorem select_number (condition : Condition) : select condition.number = condition := by
  cases condition <;> rfl

theorem number_select : ∀ condition : Fin 4, (select condition).number = condition := by
  decide

theorem holds_select (flags : Flags) : ∀ number : Fin 4,
    (select number).holds flags = true ↔ flags.Meets number
  | 0 => iff_of_eq (Bool.not_eq_true' flags.zero)
  | 2 => iff_of_eq (Bool.not_eq_true' flags.carry)
  | 1 | 3 => Iff.rfl

end Condition

/-! ## Opcodes without a meaning -/

namespace Instruction

/-- The opcodes without a meaning. -/
def unusedOpcodes : List UInt8 :=
  [0xD3, 0xDB, 0xDD, 0xE3, 0xE4, 0xEB, 0xEC, 0xED, 0xF4, 0xFC, 0xFD]

theorem lookup_eq_unused_iff (opcode : UInt8) :
    lookup opcode = .unused ↔ opcode ∈ unusedOpcodes := by
  rw [lookup_eq_decode]
  revert opcode
  exact BitField.forall_byte (by decide +kernel)

end Instruction

end DotMatrix
