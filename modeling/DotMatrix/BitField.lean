/-!
# Bit fields

A hardware register whose bits have names is one byte together with the mask of the bits that are
defined. `BitField defined` keeps the whole byte: a register read from memory may hold undefined
bits, and setting or clearing a named bit must leave those as they are. Only `truncate` and
`complement` drop undefined bits.
-/

namespace DotMatrix

/-- A byte read as a set of named bits; `defined` is the mask of the bits that have a name. -/
structure BitField (defined : UInt8) where
  /-- The byte as the register holds it, undefined bits included. -/
  bits : UInt8
deriving DecidableEq, Repr

namespace BitField

variable {defined : UInt8}

/-- No bit is set. -/
def empty : BitField defined := ⟨0⟩

/-- The field of a byte with every bit kept, the undefined ones too. -/
def retain (byte : UInt8) : BitField defined := ⟨byte⟩

/-- The field of a byte with the undefined bits dropped. -/
def truncate (byte : UInt8) : BitField defined := ⟨byte &&& defined⟩

/-- Whether all bits of `mask` are set. -/
def contains (field mask : BitField defined) : Bool := field.bits &&& mask.bits == mask.bits

/-- Whether no bit at all is set. -/
def isEmpty (field : BitField defined) : Bool := field.bits == 0

/-- The bits of either field. -/
def union (field mask : BitField defined) : BitField defined := ⟨field.bits ||| mask.bits⟩

/-- Sets the bits of `mask`. -/
def insert (field mask : BitField defined) : BitField defined := field.union mask

/-- Clears the bits of `mask`. -/
def remove (field mask : BitField defined) : BitField defined := ⟨field.bits &&& ~~~mask.bits⟩

/-- Flips the bits of `mask`. -/
def toggle (field mask : BitField defined) : BitField defined := ⟨field.bits ^^^ mask.bits⟩

/-- Sets or clears the bits of `mask`. -/
def set (field mask : BitField defined) (value : Bool) : BitField defined :=
  if value then field.insert mask else field.remove mask

/-- Flips every defined bit; undefined bits come out clear. -/
def complement (field : BitField defined) : BitField defined := truncate (~~~field.bits)

/-- What a computation confirms for all bytes holds of every byte. -/
theorem forall_byte {p : UInt8 → Prop} (all : ∀ byte : BitVec 8, p ⟨byte⟩) (byte : UInt8) : p byte :=
  all byte.toBitVec

/-! ## The byte after each operation -/

@[simp] theorem bits_empty : (empty : BitField defined).bits = 0 := rfl

@[simp] theorem bits_retain (byte : UInt8) : (retain byte : BitField defined).bits = byte := rfl

@[simp] theorem bits_truncate (byte : UInt8) :
    (truncate byte : BitField defined).bits = byte &&& defined := rfl

@[simp] theorem bits_union (field mask : BitField defined) :
    (field.union mask).bits = field.bits ||| mask.bits := rfl

@[simp] theorem bits_insert (field mask : BitField defined) :
    (field.insert mask).bits = field.bits ||| mask.bits := rfl

@[simp] theorem bits_remove (field mask : BitField defined) :
    (field.remove mask).bits = field.bits &&& ~~~mask.bits := rfl

@[simp] theorem bits_toggle (field mask : BitField defined) :
    (field.toggle mask).bits = field.bits ^^^ mask.bits := rfl

@[simp] theorem bits_complement (field : BitField defined) :
    field.complement.bits = ~~~field.bits &&& defined := rfl

theorem bits_set (field mask : BitField defined) (value : Bool) :
    (field.set mask value).bits =
      if value then field.bits ||| mask.bits else field.bits &&& ~~~mask.bits := by
  cases value <;> rfl

end BitField

end DotMatrix
