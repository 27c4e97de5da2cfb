import DotMatrix.Cpu.Instruction

/-!
# Arithmetic and logic

The operations of the processor on bytes and words, each as a function of its operands and of the
flags it starts from. Byte sums are formed in wider words, where they cannot overflow; a borrow is a
comparison.
-/

namespace DotMatrix.Alu

/-- The sum of two bytes and a carry. -/
def add (a value carryIn : UInt8) : UInt8 × Flags :=
  let nibble := (a &&& 0x0F) + (value &&& 0x0F) + carryIn
  let sum := a.toUInt16 + value.toUInt16 + carryIn.toUInt16
  let result := sum.toUInt8
  (result, .ofConditions (result == 0) false (nibble > 0x0F) (sum > 0xFF))

/-- The difference of two bytes and a borrow. -/
def subtract (a value borrowIn : UInt8) : UInt8 × Flags :=
  let result := a - value - borrowIn
  let halfBorrow := (a &&& 0x0F) < (value &&& 0x0F) + borrowIn
  let borrow := a.toUInt16 < value.toUInt16 + borrowIn.toUInt16
  (result, .ofConditions (result == 0) true halfBorrow borrow)

/-- The flags of a comparison. -/
def compare (a value : UInt8) : Flags :=
  .ofConditions (a == value) true ((a &&& 0x0F) < (value &&& 0x0F)) (a < value)

/-- A bitwise operation's result with its flags. -/
def logical (result : UInt8) (halfCarry : Bool) : UInt8 × Flags :=
  (result, .ofConditions (result == 0) false halfCarry false)

/-- The accumulator and the flags after an operation on it and a byte. -/
def combine (operation : Arithmetic) (flags : Flags) (a value : UInt8) : UInt8 × Flags :=
  match operation with
  | .add => add a value 0
  | .adc => add a value flags.carryBit
  | .sub => subtract a value 0
  | .sbc => subtract a value flags.carryBit
  | .and => logical (a &&& value) true
  | .xor => logical (a ^^^ value) false
  | .or => logical (a ||| value) false
  | .cp => (a, compare a value)

/-- One more than a byte. The carry flag stays. -/
def increment (flags : Flags) (value : UInt8) : UInt8 × Flags :=
  let result := value + 1
  (result, ((flags.withZero (result == 0)).withSubtract false).withHalfCarry (value &&& 0x0F == 0x0F))

/-- One less than a byte. The carry flag stays. -/
def decrement (flags : Flags) (value : UInt8) : UInt8 × Flags :=
  let result := value - 1
  (result, ((flags.withZero (result == 0)).withSubtract true).withHalfCarry (value &&& 0x0F == 0))

/-- The sum of two words. The zero flag stays; the half-carry comes from bit 11. -/
def addWords (flags : Flags) (word value : UInt16) : UInt16 × Flags :=
  let partSum := (word &&& 0x0FFF) + (value &&& 0x0FFF)
  let sum := word.toUInt32 + value.toUInt32
  (word + value,
    ((flags.withSubtract false).withHalfCarry (partSum > 0x0FFF)).withCarry (sum > 0xFFFF))

/-- The sum of a word and a signed byte. Both carries come from the sum of the low bytes, also when
the byte is negative. -/
def addSigned (word : UInt16) (byte : UInt8) : UInt16 × Flags :=
  let offset := Word.signExtend byte
  let halfCarry := (word &&& 0x000F) + (offset &&& 0x000F) > 0x000F
  let carry := (word &&& 0x00FF) + (offset &&& 0x00FF) > 0x00FF
  (word + offset, .ofConditions false false halfCarry carry)

/-- What decimal adjustment adds to a byte, or subtracts from it after a subtraction: 6 for the lower
digit, 0x60 for the upper one. -/
def adjustment (flags : Flags) (a : UInt8) : UInt8 :=
  let lower := flags.halfCarry || (!flags.subtract && a &&& 0x0F > 0x09)
  let upper := flags.carry || (!flags.subtract && a > 0x99)
  (if lower then 0x06 else 0x00) ||| (if upper then 0x60 else 0x00)

/-- The accumulator as two decimal digits, after an addition or a subtraction of such. -/
def decimalAdjust (flags : Flags) (a : UInt8) : UInt8 × Flags :=
  let adjust := adjustment flags a
  let result := if flags.subtract then a - adjust else a + adjust
  (result, ((flags.withCarry (adjust ≥ 0x60)).withHalfCarry false).withZero (result == 0))

/-- A byte rotated or shifted, with the bit that leaves it. -/
def shiftOut (shift : Shift) (carryIn : Bool) (value : UInt8) : UInt8 × Bool :=
  let topBit := value &&& 0x80 != 0
  let lowBit := value &&& 0x01 != 0
  match shift with
  | .rlc => (value <<< 1 ||| value >>> 7, topBit)
  | .rrc => (value >>> 1 ||| value <<< 7, lowBit)
  | .rl => (value <<< 1 ||| (if carryIn then 0x01 else 0), topBit)
  | .rr => (value >>> 1 ||| (if carryIn then 0x80 else 0), lowBit)
  | .sla => (value <<< 1, topBit)
  | .sra => (value >>> 1 ||| (value &&& 0x80), lowBit)
  | .swap => (value <<< 4 ||| value >>> 4, false)
  | .srl => (value >>> 1, lowBit)

/-- A byte rotated or shifted, with the flags. -/
def shifted (shift : Shift) (flags : Flags) (value : UInt8) : UInt8 × Flags :=
  let (result, out) := shiftOut shift flags.carry value
  (result, .ofConditions (result == 0) false false out)

/-- The byte with one bit set. -/
def bitMask (bit : Fin 8) : UInt8 := 1 <<< UInt8.ofNat bit

/-- The flags after a bit of a byte is tested. The carry flag stays. -/
def testBit (flags : Flags) (bit : Fin 8) (value : UInt8) : Flags :=
  ((flags.withZero (value &&& bitMask bit == 0)).withSubtract false).withHalfCarry true

end DotMatrix.Alu
