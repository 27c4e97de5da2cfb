/-!
# Words and their bytes

A 16-bit word is a high and a low byte. `join` builds it, `high` and `low` take it apart, and
`signExtend` reads a byte as a displacement between -128 and 127, carried modulo 65536.
-/

namespace DotMatrix.Word

/-- The upper byte of a word. -/
def high (word : UInt16) : UInt8 := (word >>> 8).toUInt8

/-- The lower byte of a word. -/
def low (word : UInt16) : UInt8 := word.toUInt8

/-- The word with the given bytes. -/
def join (high low : UInt8) : UInt16 := high.toUInt16 * 256 + low.toUInt16

/-- A byte in two's complement as a displacement modulo 65536. -/
def signExtend (byte : UInt8) : UInt16 :=
  if byte < 0x80 then byte.toUInt16 else byte.toUInt16 + 0xFF00

theorem toNat_high (word : UInt16) : (high word).toNat = word.toNat / 256 := by
  have := word.toNat_lt
  simp [high, Nat.shiftRight_eq_div_pow]
  omega

theorem toNat_low (word : UInt16) : (low word).toNat = word.toNat % 256 := by
  simp [low]

theorem toNat_join (high low : UInt8) : (join high low).toNat = 256 * high.toNat + low.toNat := by
  have := high.toNat_lt
  have := low.toNat_lt
  simp [join]
  omega

theorem join_high_low (word : UInt16) : join (high word) (low word) = word := by
  apply UInt16.toNat_inj.1
  rw [toNat_join, toNat_high, toNat_low]
  omega

@[simp] theorem high_join (upper lower : UInt8) : high (join upper lower) = upper := by
  apply UInt8.toNat_inj.1
  rw [toNat_high, toNat_join]
  have := lower.toNat_lt
  omega

@[simp] theorem low_join (upper lower : UInt8) : low (join upper lower) = lower := by
  apply UInt8.toNat_inj.1
  rw [toNat_low, toNat_join]
  have := lower.toNat_lt
  omega

/-- The displacement of a byte `b` is `b` below 128 and `b - 256` from 128 on. -/
theorem toNat_signExtend (byte : UInt8) :
    (signExtend byte).toNat = if byte.toNat < 128 then byte.toNat else byte.toNat + 65280 := by
  have := byte.toNat_lt
  unfold signExtend
  by_cases small : byte.toNat < 128
  · have below : byte < 0x80 := UInt8.lt_iff_toNat_lt.2 (by simpa using small)
    simp [small, below]
  · have above : ¬byte < 0x80 := fun below => small (by simpa using UInt8.lt_iff_toNat_lt.1 below)
    simp [small, above]
    omega

end DotMatrix.Word
