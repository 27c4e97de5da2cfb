import DotMatrix.Bus.HardwareRegister
import DotMatrix.Cpu.Alu
import DotMatrix.Cpu.Decode
import DotMatrix.Cpu.Timing

/-!
# The processor

`Cpu.step` executes one instruction: a transaction that ends with the cycles it took and the new
state. The processor stands still in three ways: halted, until an enabled interrupt is requested (if
halting is honoured at all); stopped, which is left to the machine around it; and locked up, after an
opcode without a meaning.
-/

namespace DotMatrix

/-! ## Fetching, operands and the stack -/

namespace Registers

/-- Reads the byte at the program counter and moves on. -/
def fetch (registers : Registers) : Transaction (UInt8 × Registers) := do
  let byte ← Bus.read registers.pc
  return (byte, { registers with pc := registers.pc + 1 })

/-- Reads the word at the program counter, low byte first, and moves on. -/
def fetchWord (registers : Registers) : Transaction (UInt16 × Registers) := do
  let (low, registers) ← registers.fetch
  let (high, registers) ← registers.fetch
  return (Word.join high low, registers)

/-- Pushes a word, high byte first. -/
def push (registers : Registers) (word : UInt16) : Transaction Registers := do
  Bus.write (registers.sp - 1) (Word.high word)
  Bus.write (registers.sp - 2) (Word.low word)
  return { registers with sp := registers.sp - 2 }

/-- Pops a word, low byte first. -/
def pop (registers : Registers) : Transaction (UInt16 × Registers) := do
  let low ← Bus.read registers.sp
  let high ← Bus.read (registers.sp + 1)
  return (Word.join high low, { registers with sp := registers.sp + 2 })

end Registers

/-- Reads an operand. -/
def Operand.read (operand : Operand) (registers : Registers) : Transaction UInt8 :=
  match operand with
  | .register name => return registers.get name
  | .atHl => Bus.read registers.hl

/-- Writes an operand. -/
def Operand.write (operand : Operand) (registers : Registers) (value : UInt8) :
    Transaction Registers :=
  match operand with
  | .register name => return registers.set name value
  | .atHl => do
      Bus.write registers.hl value
      return registers

/-- Reads a source. -/
def Source.read (source : Source) (registers : Registers) : Transaction (UInt8 × Registers) :=
  match source with
  | .operand place => do
      let value ← place.read registers
      return (value, registers)
  | .immediate => registers.fetch

namespace WordRegister

/-- The word in a register. -/
def get (register : WordRegister) (registers : Registers) : UInt16 :=
  match register with
  | .pair name => registers.pair name
  | .sp => registers.sp

/-- The registers with a word put into one of them. -/
def set (register : WordRegister) (registers : Registers) (word : UInt16) : Registers :=
  match register with
  | .pair name => registers.setPair name word
  | .sp => { registers with sp := word }

end WordRegister

namespace StackRegister

/-- The word to push. -/
def get (register : StackRegister) (registers : Registers) : UInt16 :=
  match register with
  | .pair name => registers.pair name
  | .af => registers.af

/-- The registers with a popped word put into one of them. -/
def set (register : StackRegister) (registers : Registers) (word : UInt16) : Registers :=
  match register with
  | .pair name => registers.setPair name word
  | .af => registers.setAf word

end StackRegister

/-- The address in a pointer. -/
def Pointer.address (pointer : Pointer) (registers : Registers) : UInt16 :=
  match pointer with
  | .bc => registers.bc
  | .de => registers.de
  | .hlUp => registers.hl
  | .hlDown => registers.hl

/-- The registers after a pointer was used. -/
def Pointer.advance (pointer : Pointer) (registers : Registers) : Registers :=
  match pointer with
  | .bc => registers
  | .de => registers
  | .hlUp => registers.incrementPair .hl
  | .hlDown => registers.decrementPair .hl

/-- The address of a hardware register. -/
def highPage (offset : UInt8) : UInt16 := Word.join 0xFF offset

/-- Finds the address of a place, reading it from the instruction where it stands there. -/
def Place.address (place : Place) (registers : Registers) : Transaction (UInt16 × Registers) :=
  match place with
  | .pointer used => return (used.address registers, used.advance registers)
  | .high => do
      let (offset, registers) ← registers.fetch
      return (highPage offset, registers)
  | .highC => return (highPage registers.c, registers)
  | .absolute => registers.fetchWord

/-! ## The processor -/

/-- The processor's state. -/
structure Cpu where
  /-- The registers. -/
  registers : Registers
  /-- The interrupt switch, kept for observers: this processor calls no interrupt routines. -/
  interruptsEnabled : Bool
  /-- HALT was executed and no interrupt has ended it. -/
  halted : Bool
  /-- STOP was executed. -/
  stopped : Bool
  /-- Whether a halted processor waits for an interrupt, or goes on at once. -/
  haltGating : Bool
  /-- An opcode without a meaning was executed. -/
  locked : Bool
deriving DecidableEq, Repr

namespace Cpu

/-- The processor when the boot program hands over. -/
def postBoot : Cpu where
  registers := .postBoot
  interruptsEnabled := false
  halted := false
  stopped := false
  haltGating := false
  locked := false

/-- Back to the state after the boot program; halt gating is a setting and stays. -/
def reset (cpu : Cpu) : Cpu := { postBoot with haltGating := cpu.haltGating }

/-- The processor with other registers, at no extra cost. -/
def continueWith (cpu : Cpu) (registers : Registers) : Nat × Cpu := (0, { cpu with registers })

/-- The processor with the result and the flags of an operation on the accumulator. -/
def setResult (registers : Registers) (outcome : UInt8 × Flags) : Registers :=
  { registers with a := outcome.1, f := outcome.2 }

/-! ## Execution -/

/-- Executes a bit instruction. A shift sets the flags before its result is written. -/
def executeBit (registers : Registers) : BitInstruction → Transaction Registers
  | .shift shift operand => do
      let value ← operand.read registers
      let (result, flags) := Alu.shifted shift registers.f value
      operand.write { registers with f := flags } result
  | .test bit operand => do
      let value ← operand.read registers
      return { registers with f := Alu.testBit registers.f bit value }
  | .reset bit operand => do
      let value ← operand.read registers
      operand.write registers (value &&& ~~~Alu.bitMask bit)
  | .set bit operand => do
      let value ← operand.read registers
      operand.write registers (value ||| Alu.bitMask bit)

/-- Executes an instruction whose opcode has been fetched. Returns the cycles on top of the
instruction's own: the penalty of a transfer that goes through, or the cost of a bit instruction. -/
def execute (cpu : Cpu) (instruction : Instruction) : Transaction (Nat × Cpu) :=
  let registers := cpu.registers
  match instruction with
  | .nop => return (0, cpu)
  | .stop => do
      let (_, registers) ← registers.fetch
      Bus.report (.stopped (registers.pc - 2))
      return (0, { cpu with registers, stopped := true })
  | .halt => return (0, { cpu with halted := true })
  | .load target source => do
      let (value, registers) ← source.read registers
      return cpu.continueWith (← target.write registers value)
  | .loadWord target => do
      let (word, registers) ← registers.fetchWord
      return cpu.continueWith (target.set registers word)
  | .storeA place => do
      let (address, registers) ← place.address registers
      Bus.write address registers.a
      return cpu.continueWith registers
  | .loadA place => do
      let (address, registers) ← place.address registers
      let value ← Bus.read address
      return cpu.continueWith { registers with a := value }
  | .storeSp => do
      let (address, registers) ← registers.fetchWord
      Bus.writeWord address registers.sp
      return cpu.continueWith registers
  | .spFromHl => return cpu.continueWith { registers with sp := registers.hl }
  | .hlFromSp => do
      let (offset, registers) ← registers.fetch
      let (word, flags) := Alu.addSigned registers.sp offset
      return cpu.continueWith ({ registers with f := flags }.setHl word)
  | .addSp => do
      let (offset, registers) ← registers.fetch
      let (word, flags) := Alu.addSigned registers.sp offset
      return cpu.continueWith { registers with sp := word, f := flags }
  | .inc operand => do
      let value ← operand.read registers
      let (result, flags) := Alu.increment registers.f value
      return cpu.continueWith (← operand.write { registers with f := flags } result)
  | .dec operand => do
      let value ← operand.read registers
      let (result, flags) := Alu.decrement registers.f value
      return cpu.continueWith (← operand.write { registers with f := flags } result)
  | .incWord register =>
      return cpu.continueWith (register.set registers (register.get registers + 1))
  | .decWord register =>
      return cpu.continueWith (register.set registers (register.get registers - 1))
  | .addHl register =>
      let (word, flags) := Alu.addWords registers.f registers.hl (register.get registers)
      return cpu.continueWith ({ registers with f := flags }.setHl word)
  | .arithmetic operation source => do
      let (value, registers) ← source.read registers
      return cpu.continueWith (setResult registers (Alu.combine operation registers.f registers.a value))
  | .rotateA shift =>
      let (result, flags) := Alu.shifted shift registers.f registers.a
      return cpu.continueWith (setResult registers (result, flags.withZero false))
  | .daa => return cpu.continueWith (setResult registers (Alu.decimalAdjust registers.f registers.a))
  | .cpl =>
      return cpu.continueWith (setResult registers
        (~~~registers.a, (registers.f.withSubtract true).withHalfCarry true))
  | .scf =>
      let flags := (registers.f.withSubtract false).withHalfCarry false
      return cpu.continueWith { registers with f := flags.withCarry true }
  | .ccf =>
      let flags := (registers.f.withSubtract false).withHalfCarry false
      return cpu.continueWith { registers with f := flags.withCarry !flags.carry }
  | .jumpRelative guard => do
      let (offset, registers) ← registers.fetch
      if Condition.met guard registers.f then
        let target := registers.pc + Word.signExtend offset
        return (instruction.takenPenalty, { cpu with registers := { registers with pc := target } })
      else
        return cpu.continueWith registers
  | .jump guard => do
      let (target, registers) ← registers.fetchWord
      if Condition.met guard registers.f then
        return (instruction.takenPenalty, { cpu with registers := { registers with pc := target } })
      else
        return cpu.continueWith registers
  | .jumpHl => return cpu.continueWith { registers with pc := registers.hl }
  | .call guard => do
      let (target, registers) ← registers.fetchWord
      if Condition.met guard registers.f then
        let registers ← registers.push registers.pc
        return (instruction.takenPenalty, { cpu with registers := { registers with pc := target } })
      else
        return cpu.continueWith registers
  | .ret guard =>
      if Condition.met guard registers.f then do
        let (target, registers) ← registers.pop
        return (instruction.takenPenalty, { cpu with registers := { registers with pc := target } })
      else
        return (0, cpu)
  | .reti => do
      let (target, registers) ← registers.pop
      return (0, { cpu with registers := { registers with pc := target }, interruptsEnabled := true })
  | .restart number => do
      let registers ← registers.push registers.pc
      return cpu.continueWith { registers with pc := 8 * UInt16.ofNat number }
  | .push register => do
      return cpu.continueWith (← registers.push (register.get registers))
  | .pop register => do
      let (word, registers) ← registers.pop
      return cpu.continueWith (register.set registers word)
  | .di => return (0, { cpu with interruptsEnabled := false })
  | .ei => return (0, { cpu with interruptsEnabled := true })
  | .extended => do
      let (opcode, registers) ← registers.fetch
      let instruction := BitInstruction.lookup opcode
      let registers ← executeBit registers instruction
      return (instruction.cycles, { cpu with registers })
  | .unused => return (0, cpu)

/-- What a lock-up reports: the opcode at `pc` and the registers. -/
def lockUpEvent (registers : Registers) (pc : UInt16) (opcode : UInt8) : Event :=
  .lockedUp opcode pc registers.sp registers.af registers.bc registers.de registers.hl

/-- Fetches and executes one instruction. -/
def advance (cpu : Cpu) : Transaction (Nat × Cpu) := do
  let pc := cpu.registers.pc
  let (opcode, registers) ← cpu.registers.fetch
  let instruction := Instruction.lookup opcode
  Bus.report (.executing pc opcode)
  if instruction = .unused then
    Bus.report (lockUpEvent registers pc opcode)
    return (0, { cpu with registers, locked := true })
  else
    let (extra, cpu) ← execute { cpu with registers } instruction
    return (instruction.cycles + extra, cpu)

/-- Executes one instruction, or waits one cycle, and returns the cycles it took; 0 once the
processor is locked up. -/
def step (cpu : Cpu) : Transaction (Nat × Cpu) :=
  if cpu.locked then
    return (0, cpu)
  else if cpu.halted && cpu.haltGating then do
    let pending ← Bus.pendingInterrupts
    if pending.isEmpty then
      return (1, cpu)
    else
      advance { cpu with halted := false }
  else
    advance cpu

end Cpu

end DotMatrix
