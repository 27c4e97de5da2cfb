import DotMatrix.Cpu.Registers

/-!
# Instructions

What the processor can be told to do. One constructor stands for a family of opcodes that differ
only in their operands: where the operands come from (`Operand`, `Source`, `Place`) is data, so that
a rule on a family is one equation.
-/

namespace DotMatrix

/-- A byte that an instruction reads and writes: a register, or the byte at HL. -/
inductive Operand where
  | register (register : ByteRegister)
  | atHl
deriving DecidableEq, Repr

/-- A byte that an instruction only reads. -/
inductive Source where
  | operand (operand : Operand)
  | immediate
deriving DecidableEq, Repr

/-- A word register of the loads and of word arithmetic. -/
inductive WordRegister where
  | pair (pair : Pair)
  | sp
deriving DecidableEq, Repr

/-- A word register that can be pushed and popped. -/
inductive StackRegister where
  | pair (pair : Pair)
  | af
deriving DecidableEq, Repr

/-- A pair used as an address, with what happens to it afterwards. -/
inductive Pointer where
  /-- The byte at BC. -/
  | bc
  /-- The byte at DE. -/
  | de
  /-- The byte at HL, which then goes up by one. -/
  | hlUp
  /-- The byte at HL, which then goes down by one. -/
  | hlDown
deriving DecidableEq, Repr

/-- A place in memory to which the accumulator is stored or from which it is loaded. -/
inductive Place where
  /-- The byte at a pointer. -/
  | pointer (pointer : Pointer)
  /-- A hardware register, by the byte after the opcode. -/
  | high
  /-- A hardware register, by the byte in C. -/
  | highC
  /-- The byte at the word after the opcode. -/
  | absolute
deriving DecidableEq, Repr

/-- A condition on the flags. -/
inductive Condition where
  | notZero
  | zero
  | notCarry
  | carry
deriving DecidableEq, Repr

namespace Condition

/-- Whether the flags meet a condition. -/
def holds : Condition → Flags → Bool
  | .notZero, flags => !flags.zero
  | .zero, flags => flags.zero
  | .notCarry, flags => !flags.carry
  | .carry, flags => flags.carry

/-- Whether an instruction goes through that is guarded by a condition, or by none. -/
def met (guard : Option Condition) (flags : Flags) : Bool :=
  match guard with
  | none => true
  | some condition => condition.holds flags

end Condition

/-- An operation on the accumulator and a byte. -/
inductive Arithmetic where
  | add
  | adc
  | sub
  /-- Subtraction with the carry as a borrow. -/
  | sbc
  | and
  | xor
  | or
  /-- Subtraction for the flags alone. -/
  | cp
deriving DecidableEq, Repr

/-- A rotation or a shift of a byte. -/
inductive Shift where
  /-- Rotation to the left. -/
  | rlc
  /-- Rotation to the right. -/
  | rrc
  /-- Rotation to the left through the carry. -/
  | rl
  /-- Rotation to the right through the carry. -/
  | rr
  /-- Shift to the left. -/
  | sla
  /-- Shift to the right that keeps the top bit. -/
  | sra
  /-- Exchange of the two halves. -/
  | swap
  /-- Shift to the right. -/
  | srl
deriving DecidableEq, Repr

/-- What an opcode stands for. -/
inductive Instruction where
  | nop
  /-- Stop the machine; the byte after the opcode is skipped. -/
  | stop
  | halt
  | load (target : Operand) (source : Source)
  /-- Load the word after the opcode. -/
  | loadWord (target : WordRegister)
  | storeA (place : Place)
  | loadA (place : Place)
  /-- Store the stack pointer at the word after the opcode. -/
  | storeSp
  /-- Copy HL to the stack pointer. -/
  | spFromHl
  /-- Put the stack pointer plus a signed byte into HL. -/
  | hlFromSp
  | addSp
  | inc (operand : Operand)
  | dec (operand : Operand)
  | incWord (register : WordRegister)
  | decWord (register : WordRegister)
  | addHl (register : WordRegister)
  /-- Combine the accumulator with a byte. -/
  | arithmetic (operation : Arithmetic) (source : Source)
  | rotateA (shift : Shift)
  /-- Correct the accumulator to decimal digits after an addition or a subtraction. -/
  | daa
  /-- Flip all bits of the accumulator. -/
  | cpl
  | scf
  /-- Flip the carry. -/
  | ccf
  /-- Jump by a signed byte. -/
  | jumpRelative (guard : Option Condition)
  /-- Jump to the word after the opcode. -/
  | jump (guard : Option Condition)
  | jumpHl
  /-- Call the routine at the word after the opcode. -/
  | call (guard : Option Condition)
  | ret (guard : Option Condition)
  /-- Return from a routine and enable interrupts. -/
  | reti
  /-- Call the routine at eight times a number. -/
  | restart (number : Fin 8)
  | push (register : StackRegister)
  | pop (register : StackRegister)
  | di
  | ei
  /-- The byte after the opcode says what to do. -/
  | extended
  /-- The opcode has no meaning. -/
  | unused
deriving DecidableEq, Repr

/-- What the byte after an `Instruction.extended` stands for. -/
inductive BitInstruction where
  | shift (shift : Shift) (operand : Operand)
  | test (bit : Fin 8) (operand : Operand)
  | reset (bit : Fin 8) (operand : Operand)
  | set (bit : Fin 8) (operand : Operand)
deriving DecidableEq, Repr

end DotMatrix
