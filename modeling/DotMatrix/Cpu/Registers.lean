import DotMatrix.Cpu.Flags
import DotMatrix.Word

/-!
# Registers

Seven byte registers, the flags, the stack pointer and the program counter. Six of the byte
registers also serve as the halves of the pairs BC, DE and HL; a pair has no storage of its own, so
`setPair` writes the halves and `pair` joins them.
-/

namespace DotMatrix

/-- A byte register. -/
inductive ByteRegister where
  | a
  | b
  | c
  | d
  | e
  | h
  | l
deriving DecidableEq, Repr

/-- A pair of byte registers used as a word. -/
inductive Pair where
  | bc
  | de
  | hl
deriving DecidableEq, Repr

namespace Pair

/-- The register with the upper half. -/
def upper : Pair → ByteRegister
  | .bc => .b
  | .de => .d
  | .hl => .h

/-- The register with the lower half. -/
def lower : Pair → ByteRegister
  | .bc => .c
  | .de => .e
  | .hl => .l

end Pair

/-- The processor's registers. -/
structure Registers where
  a : UInt8
  f : Flags
  b : UInt8
  c : UInt8
  d : UInt8
  e : UInt8
  h : UInt8
  l : UInt8
  sp : UInt16
  /-- The address of the next opcode. -/
  pc : UInt16
deriving DecidableEq, Repr

namespace Registers

def zero : Registers := ⟨0, .empty, 0, 0, 0, 0, 0, 0, 0, 0⟩

/-- The registers when the boot program hands over. -/
def postBoot : Registers where
  a := 0x01
  f := .truncate 0xB0
  b := 0x00
  c := 0x13
  d := 0x00
  e := 0xD8
  h := 0x01
  l := 0x4D
  sp := 0xFFFE
  pc := 0x0100

/-- The byte in a register. -/
def get (registers : Registers) : ByteRegister → UInt8
  | .a => registers.a
  | .b => registers.b
  | .c => registers.c
  | .d => registers.d
  | .e => registers.e
  | .h => registers.h
  | .l => registers.l

/-- The registers with a byte put into one of them. -/
def set (registers : Registers) (register : ByteRegister) (value : UInt8) : Registers :=
  match register with
  | .a => { registers with a := value }
  | .b => { registers with b := value }
  | .c => { registers with c := value }
  | .d => { registers with d := value }
  | .e => { registers with e := value }
  | .h => { registers with h := value }
  | .l => { registers with l := value }

/-- The word in a pair. -/
def pair (registers : Registers) (pair : Pair) : UInt16 :=
  Word.join (registers.get pair.upper) (registers.get pair.lower)

/-- The registers with a word put into a pair. -/
def setPair (registers : Registers) (pair : Pair) (word : UInt16) : Registers :=
  (registers.set pair.upper (Word.high word)).set pair.lower (Word.low word)

def increment (registers : Registers) (register : ByteRegister) : Registers :=
  registers.set register (registers.get register + 1)

def decrement (registers : Registers) (register : ByteRegister) : Registers :=
  registers.set register (registers.get register - 1)

def incrementPair (registers : Registers) (pair : Pair) : Registers :=
  registers.setPair pair (registers.pair pair + 1)

def decrementPair (registers : Registers) (pair : Pair) : Registers :=
  registers.setPair pair (registers.pair pair - 1)

abbrev bc (registers : Registers) : UInt16 := registers.pair .bc

abbrev de (registers : Registers) : UInt16 := registers.pair .de

abbrev hl (registers : Registers) : UInt16 := registers.pair .hl

abbrev setHl (registers : Registers) (word : UInt16) : Registers := registers.setPair .hl word

/-- The accumulator and the flags as a word. -/
def af (registers : Registers) : UInt16 := Word.join registers.a registers.f.bits

/-- Puts a word into the accumulator and the flags, which drop their undefined bits. -/
def setAf (registers : Registers) (word : UInt16) : Registers :=
  { registers with a := Word.high word, f := .truncate (Word.low word) }

/-! ## Reading back what was put -/

theorem get_set (registers : Registers) (register other : ByteRegister) (value : UInt8) :
    (registers.set register value).get other =
      if other = register then value else registers.get other := by
  cases register <;> cases other <;> rfl

@[simp] theorem pair_setPair_self (registers : Registers) (pair : Pair) (word : UInt16) :
    (registers.setPair pair word).pair pair = word := by
  cases pair <;> exact Word.join_high_low word

end Registers

end DotMatrix
