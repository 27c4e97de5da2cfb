import DotMatrix.Proofs.Bounded.Checked
import DotMatrix.Proofs.Cpu.Sums

/-!
# Arithmetic that fits

The operations of the processor, with every sum, difference and shift looked after that is not meant
to wrap around: those of the bytes and of their lower halves in a byte, a word or a signed word,
with the carry that comes in; those of the low twelve bits of words, and of whole words in 32 bits;
and the shifts by the number of a bit. Each fits, whatever the operands are, and the operation gives
what the wrapping operation gives.

Results:
1. `addChecked_eq`, `subtractChecked_eq`, `combineChecked_eq`: bytes.
2. `addWordsChecked_eq`, `addSignedChecked_eq`: words.
3. `shiftedChecked_eq`, `bitMaskChecked_eq`: shifts.
-/

namespace DotMatrix.Alu

/-! ## Bytes -/

/-- A byte as a signed word. -/
def toSigned (byte : UInt8) : Int16 := byte.toUInt16.toInt16

theorem toInt_toSigned (byte : UInt8) : (toSigned byte).toInt = byte.toNat := by
  have := byte.toNat_lt
  have signed : (toSigned byte).toInt = (byte.toNat : Int).bmod 65536 :=
    BitVec.toInt_eq_toNat_bmod byte.toUInt16.toBitVec
  rw [signed, Int.bmod_def]
  omega

/-- The sum of two bytes and a carry. -/
def addChecked (a value carryIn : UInt8) : Checked (UInt8 × Flags) := do
  let nibble ← Checked.add (a &&& 0x0F) (value &&& 0x0F)
  let nibble ← Checked.add nibble carryIn
  let sum ← Checked.add a.toUInt16 value.toUInt16
  let sum ← Checked.add sum carryIn.toUInt16
  let result := sum.toUInt8
  return (result, .ofConditions (result == 0) false (nibble > 0x0F) (sum > 0xFF))

/-- The difference of two bytes and a borrow. -/
def subtractChecked (a value borrowIn : UInt8) : Checked (UInt8 × Flags) := do
  let nibble ← Checked.sub (toSigned (a &&& 0x0F)) (toSigned (value &&& 0x0F))
  let nibble ← Checked.sub nibble (toSigned borrowIn)
  let difference ← Checked.sub (toSigned a) (toSigned value)
  let difference ← Checked.sub difference (toSigned borrowIn)
  let result := difference.toUInt16.toUInt8
  return (result, .ofConditions (result == 0) true (nibble < 0) (difference < 0))

/-- The accumulator and the flags after an operation on it and a byte. -/
def combineChecked (operation : Arithmetic) (flags : Flags) (a value : UInt8) :
    Checked (UInt8 × Flags) :=
  match operation with
  | .add => addChecked a value 0
  | .adc => addChecked a value flags.carryBit
  | .sub => subtractChecked a value 0
  | .sbc => subtractChecked a value flags.carryBit
  | .and => return logical (a &&& value) true
  | .xor => return logical (a ^^^ value) false
  | .or => return logical (a ||| value) false
  | .cp => return (a, compare a value)

section

variable (a value : UInt8) {carryIn : UInt8}

theorem addChecked_eq (bit : carryIn.toNat ≤ 1) :
    addChecked a value carryIn = .ok (add a value carryIn) := by
  have := a.toNat_lt
  have := value.toNat_lt
  have nibble : Checked.add (a &&& 0x0F) (value &&& 0x0F) =
      .ok ((a &&& 0x0F) + (value &&& 0x0F)) := Checked.add_eq_ok (by
    simp only [FixedWidth.toInt_byte, UInt8.toNat_add, toNat_and_fifteen]
    omega)
  have nibbles : Checked.add ((a &&& 0x0F) + (value &&& 0x0F)) carryIn =
      .ok ((a &&& 0x0F) + (value &&& 0x0F) + carryIn) := Checked.add_eq_ok (by
    simp only [FixedWidth.toInt_byte, UInt8.toNat_add, toNat_and_fifteen]
    omega)
  have sum : Checked.add a.toUInt16 value.toUInt16 = .ok (a.toUInt16 + value.toUInt16) :=
    Checked.add_eq_ok (by
      simp only [FixedWidth.toInt_word, UInt16.toNat_add, UInt8.toNat_toUInt16]
      omega)
  have sums : Checked.add (a.toUInt16 + value.toUInt16) carryIn.toUInt16 =
      .ok (a.toUInt16 + value.toUInt16 + carryIn.toUInt16) := Checked.add_eq_ok (by
    simp only [FixedWidth.toInt_word, UInt16.toNat_add, UInt8.toNat_toUInt16]
    omega)
  simp only [addChecked, nibble, nibbles, sum, sums, Checked.ok_bind]
  rfl

theorem sub_signed {a b : Int16} (low : -32768 ≤ a.toInt - b.toInt)
    (high : a.toInt - b.toInt < 32768) :
    Checked.sub a b = .ok (a - b) ∧ (a - b).toInt = a.toInt - b.toInt := by
  have difference : (a - b).toInt = a.toInt - b.toInt := by
    rw [Int16.toInt_sub]
    exact Int.bmod_eq_of_le low high
  exact ⟨Checked.sub_eq_ok difference, difference⟩

theorem subtractChecked_eq (bit : carryIn.toNat ≤ 1) :
    subtractChecked a value carryIn = .ok (subtract a value carryIn) := by
  have := a.toNat_lt
  have := value.toNat_lt
  have lower : (a &&& 0x0F).toNat = a.toNat % 16 := toNat_and_fifteen a
  have lower' : (value &&& 0x0F).toNat = value.toNat % 16 := toNat_and_fifteen value
  obtain ⟨nibble, nibbleInt⟩ :=
    sub_signed (a := toSigned (a &&& 0x0F)) (b := toSigned (value &&& 0x0F))
      (by simp only [toInt_toSigned]; omega) (by simp only [toInt_toSigned]; omega)
  obtain ⟨nibbles, nibblesInt⟩ :=
    sub_signed (a := toSigned (a &&& 0x0F) - toSigned (value &&& 0x0F)) (b := toSigned carryIn)
      (by simp only [nibbleInt, toInt_toSigned]; omega)
      (by simp only [nibbleInt, toInt_toSigned]; omega)
  obtain ⟨difference, differenceInt⟩ := sub_signed (a := toSigned a) (b := toSigned value)
    (by simp only [toInt_toSigned]; omega) (by simp only [toInt_toSigned]; omega)
  obtain ⟨differences, differencesInt⟩ :=
    sub_signed (a := toSigned a - toSigned value) (b := toSigned carryIn)
      (by simp only [differenceInt, toInt_toSigned]; omega)
      (by simp only [differenceInt, toInt_toSigned]; omega)
  have result : (toSigned a - toSigned value - toSigned carryIn).toUInt16.toUInt8 =
      a - value - carryIn := by
    simp [toSigned]
  have halfBorrow : toSigned (a &&& 0x0F) - toSigned (value &&& 0x0F) - toSigned carryIn < 0 ↔
      a &&& 0x0F < (value &&& 0x0F) + carryIn := by
    rw [Int16.lt_iff_toInt_lt, nibblesInt, nibbleInt, UInt8.lt_iff_toNat_lt, UInt8.toNat_add]
    simp only [toInt_toSigned, Int16.toInt_zero]
    omega
  have borrow : toSigned a - toSigned value - toSigned carryIn < 0 ↔
      a.toUInt16 < value.toUInt16 + carryIn.toUInt16 := by
    rw [Int16.lt_iff_toInt_lt, differencesInt, differenceInt, UInt16.lt_iff_toNat_lt,
      UInt16.toNat_add]
    simp only [toInt_toSigned, Int16.toInt_zero, UInt8.toNat_toUInt16]
    omega
  simp only [subtractChecked, nibble, nibbles, difference, differences, Checked.ok_bind, result,
    halfBorrow, borrow]
  rfl

theorem combineChecked_eq (operation : Arithmetic) (flags : Flags) :
    combineChecked operation flags a value = .ok (combine operation flags a value) := by
  cases operation with
  | add => exact addChecked_eq a value (Nat.zero_le 1)
  | adc => exact addChecked_eq a value flags.toNat_carryBit_le
  | sub => exact subtractChecked_eq a value (Nat.zero_le 1)
  | sbc => exact subtractChecked_eq a value flags.toNat_carryBit_le
  | and | xor | or | cp => rfl

end

/-! ## Words -/

/-- The sum of two words, with the sum of their low twelve bits and the whole sum in 32 bits. -/
def addWordsChecked (flags : Flags) (word value : UInt16) : Checked (UInt16 × Flags) := do
  let partSum ← Checked.add (word &&& 0x0FFF) (value &&& 0x0FFF)
  let sum ← Checked.add word.toUInt32 value.toUInt32
  return (word + value,
    ((flags.withSubtract false).withHalfCarry (partSum > 0x0FFF)).withCarry (sum > 0xFFFF))

/-- The sum of a word and a signed byte, with the sums of their low four and eight bits. -/
def addSignedChecked (word : UInt16) (byte : UInt8) : Checked (UInt16 × Flags) := do
  let offset := Word.signExtend byte
  let nibble ← Checked.add (word &&& 0x000F) (offset &&& 0x000F)
  let sum ← Checked.add (word &&& 0x00FF) (offset &&& 0x00FF)
  return (word + offset, .ofConditions false false (nibble > 0x000F) (sum > 0x00FF))

/-- Words below a power of two have a sum that fits. -/
theorem add_masked (word value mask : UInt16) (small : mask.toNat < 2 ^ 15) :
    Checked.add (word &&& mask) (value &&& mask) = .ok ((word &&& mask) + (value &&& mask)) := by
  have masked (word : UInt16) : (word &&& mask).toNat ≤ mask.toNat := by
    rw [UInt16.toNat_and]
    exact Nat.and_le_right
  have := masked word
  have := masked value
  refine Checked.add_eq_ok ?_
  simp only [FixedWidth.toInt_word, UInt16.toNat_add]
  omega

theorem addWordsChecked_eq (flags : Flags) (word value : UInt16) :
    addWordsChecked flags word value = .ok (addWords flags word value) := by
  have := word.toNat_lt
  have := value.toNat_lt
  have sum : Checked.add word.toUInt32 value.toUInt32 = .ok (word.toUInt32 + value.toUInt32) :=
    Checked.add_eq_ok (by
      simp only [FixedWidth.toInt_double, UInt32.toNat_add, UInt16.toNat_toUInt32]
      omega)
  simp only [addWordsChecked, add_masked word value 0x0FFF (by decide), sum, Checked.ok_bind]
  rfl

theorem addSignedChecked_eq (word : UInt16) (byte : UInt8) :
    addSignedChecked word byte = .ok (addSigned word byte) := by
  simp only [addSignedChecked, add_masked word _ 0x000F (by decide),
    add_masked word _ 0x00FF (by decide), Checked.ok_bind]
  rfl

/-! ## Shifts -/

/-- A byte rotated or shifted, with the bit that leaves it. Rotations wrap around. -/
def shiftOutChecked (shift : Shift) (carryIn : Bool) (value : UInt8) : Checked (UInt8 × Bool) := do
  let topBit := value &&& 0x80 != 0
  let lowBit := value &&& 0x01 != 0
  match shift with
  | .rl => return ((← Checked.shiftLeft value 1) ||| (if carryIn then 1 else 0), topBit)
  | .rr =>
    let carry ← Checked.shiftLeft (if carryIn then 1 else 0) 7
    return ((← Checked.shiftRight value 1) ||| carry, lowBit)
  | .sla => return (← Checked.shiftLeft value 1, topBit)
  | .sra => return ((← Checked.shiftRight value 1) ||| (value &&& 0x80), lowBit)
  | .srl => return (← Checked.shiftRight value 1, lowBit)
  | .rlc | .rrc | .swap => return shiftOut shift carryIn value

/-- A byte rotated or shifted, with the flags. -/
def shiftedChecked (shift : Shift) (flags : Flags) (value : UInt8) : Checked (UInt8 × Flags) := do
  let (result, out) ← shiftOutChecked shift flags.carry value
  return (result, .ofConditions (result == 0) false false out)

/-- The byte with one bit set. -/
def bitMaskChecked (bit : Fin 8) : Checked UInt8 := Checked.shiftLeft 1 (.ofNat bit)

theorem shiftOutChecked_eq (shift : Shift) (carryIn : Bool) (value : UInt8) :
    shiftOutChecked shift carryIn value = .ok (shiftOut shift carryIn value) := by
  cases shift with
  | rr => cases carryIn <;> rfl
  | _ => rfl

theorem shiftedChecked_eq (shift : Shift) (flags : Flags) (value : UInt8) :
    shiftedChecked shift flags value = .ok (shifted shift flags value) := by
  rw [shiftedChecked, shiftOutChecked_eq]
  rfl

theorem bitMaskChecked_eq (bit : Fin 8) : bitMaskChecked bit = .ok (bitMask bit) := by
  revert bit
  decide

end DotMatrix.Alu
