import DotMatrix.BitField

/-!
# Flags

The processor's condition codes are the upper half of the flag register; the lower half is always
zero, because no operation on flags sets a bit outside the mask.
-/

namespace DotMatrix

/-- The flag register. -/
abbrev Flags := BitField 0xF0

namespace Flags

/-- The last result was zero. -/
def zeroMask : Flags := ⟨0x80⟩
/-- The last operation was a subtraction. -/
def subtractMask : Flags := ⟨0x40⟩
/-- The last operation carried out of the lower half. -/
def halfCarryMask : Flags := ⟨0x20⟩
/-- The last operation carried out of the top bit. -/
def carryMask : Flags := ⟨0x10⟩

def zero (flags : Flags) : Bool := flags.contains zeroMask
def subtract (flags : Flags) : Bool := flags.contains subtractMask
def halfCarry (flags : Flags) : Bool := flags.contains halfCarryMask
def carry (flags : Flags) : Bool := flags.contains carryMask
/-- The carry flag as a summand. -/
def carryBit (flags : Flags) : UInt8 := if flags.carry then 1 else 0

def withZero (flags : Flags) (value : Bool) : Flags := flags.set zeroMask value
def withSubtract (flags : Flags) (value : Bool) : Flags := flags.set subtractMask value
def withHalfCarry (flags : Flags) (value : Bool) : Flags := flags.set halfCarryMask value
def withCarry (flags : Flags) (value : Bool) : Flags := flags.set carryMask value

def clear : Flags := .empty

/-- The flags with the given conditions. -/
def ofConditions (zero subtract halfCarry carry : Bool) : Flags :=
  (((clear.withZero zero).withSubtract subtract).withHalfCarry halfCarry).withCarry carry

/-! ## Reading back what was set -/

variable (z n h c : Bool)

@[simp] theorem zero_ofConditions : (ofConditions z n h c).zero = z := by
  revert z n h c
  decide

@[simp] theorem subtract_ofConditions : (ofConditions z n h c).subtract = n := by
  revert z n h c
  decide

@[simp] theorem halfCarry_ofConditions : (ofConditions z n h c).halfCarry = h := by
  revert z n h c
  decide

@[simp] theorem carry_ofConditions : (ofConditions z n h c).carry = c := by
  revert z n h c
  decide

end Flags

end DotMatrix
