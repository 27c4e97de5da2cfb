import DotMatrix.Proofs.Video.Picture
import Mathlib.Data.Nat.Init
import Mathlib.Data.Set.Function

/-!
# The bytes of a tile

The sixteen bytes of a tile are two planes of bits, which take turns row by row. However the bytes
are chosen, they give a tile whose colours take two bits each, and every such tile is given by one
choice of them: no bit is lost, and none stands for two pixels.

Results:
1. `Tile.encode_decode`, `Tile.decode_encode`: the bytes are found again from the colours, and the
   colours from the bytes.
2. `Tile.decode_bijOn`: bytes and tiles of two bits a colour stand for each other one to one.
-/

namespace DotMatrix

/-! ## Numbers of two bits -/

theorem two_bits {number : Nat} (small : number ≤ 3) :
    2 * (number.testBit 1).toNat + (number.testBit 0).toNat = number := by
  rw [Nat.toNat_testBit, Nat.toNat_testBit]
  omega

theorem testBit_two_bits (upper lower : Bool) :
    (2 * upper.toNat + lower.toNat).testBit 0 = lower ∧
      (2 * upper.toNat + lower.toNat).testBit 1 = upper := by
  revert upper lower
  decide

namespace Tile

/-! ## Planes -/

/-- One bit of each colour of a row, the leftmost column's on top. -/
def plane (row : Vector UInt8 8) (bit : Nat) : UInt8 :=
  .ofNat (Nat.ofBits fun place : Fin 8 => (row.get place.rev).toNat.testBit bit)

theorem testBit_plane (row : Vector UInt8 8) (bit : Nat) (column : Fin 8) :
    (plane row bit).toNat.testBit (7 - column.val) = (row.get column).toNat.testBit bit := by
  have inByte : 7 - column.val < 8 := by omega
  have place : (⟨7 - column.val, inByte⟩ : Fin 8).rev = column := by
    apply Fin.ext
    simp only [Fin.val_rev]
    omega
  rw [plane, UInt8.toNat_ofNat', Nat.mod_eq_of_lt (Nat.ofBits_lt_two_pow _),
    Nat.testBit_ofBits_lt _ _ inByte, place]

/-- A row whose colours have the bits of a byte gives that byte back. -/
theorem plane_eq {row : Vector UInt8 8} {bit : Nat} {byte : UInt8}
    (bits : ∀ column : Fin 8,
      (row.get column).toNat.testBit bit = byte.toNat.testBit (7 - column.val)) :
    plane row bit = byte := by
  have same : (fun place : Fin 8 => (row.get place.rev).toNat.testBit bit) =
      fun place : Fin 8 => byte.toNat.testBit place.val := by
    funext place
    have back : 7 - place.rev.val = place.val := by
      rw [Fin.val_rev]
      omega
    rw [bits, back]
  rw [plane, same, Nat.ofBits_testBit, Nat.mod_eq_of_lt byte.toNat_lt, UInt8.ofNat_toNat]

/-! ## Bytes and colours -/

theorem low_lt (y : Fin 8) : 2 * y.val < 16 := by omega

theorem high_lt (y : Fin 8) : 2 * y.val + 1 < 16 := by omega

/-- The byte with the low bits of a row. -/
def lowByte (bytes : Vector UInt8 16) (y : Fin 8) : UInt8 := bytes.get ⟨2 * y.val, low_lt y⟩

/-- The byte with the high bits of a row. -/
def highByte (bytes : Vector UInt8 16) (y : Fin 8) : UInt8 :=
  bytes.get ⟨2 * y.val + 1, high_lt y⟩

/-- The colour in a column of a row. -/
def colour (tile : Tile) (x y : Fin 8) : UInt8 := (tile.rows.get y).get x

theorem eq_of_colour {tile other : Tile} (same : ∀ x y, tile.colour x y = other.colour x y) :
    tile = other := by
  obtain ⟨rows⟩ := tile
  obtain ⟨otherRows⟩ := other
  exact congrArg Tile.mk (Vector.ext fun y row => Vector.ext fun x column =>
    same ⟨x, column⟩ ⟨y, row⟩)

/-- Every colour takes two bits. -/
def IsTwoBit (tile : Tile) : Prop := ∀ x y, tile.colour x y ≤ 3

/-- The bytes of a tile: for each row the low bits of its colours, then the high bits. -/
def encode (tile : Tile) : Vector UInt8 16 :=
  Vector.ofFn fun offset => plane tile.rows[offset.val / 2] (offset.val % 2)

theorem lowByte_encode (tile : Tile) (y : Fin 8) :
    lowByte (encode tile) y = plane (tile.rows.get y) 0 := by
  have row : 2 * y.val / 2 = y.val := by omega
  have even : 2 * y.val % 2 = 0 := by omega
  simp only [lowByte, encode, Scanline.get_mk, Vector.getElem_ofFn, row, even]
  rfl

theorem highByte_encode (tile : Tile) (y : Fin 8) :
    highByte (encode tile) y = plane (tile.rows.get y) 1 := by
  have row : (2 * y.val + 1) / 2 = y.val := by omega
  have odd : (2 * y.val + 1) % 2 = 1 := by omega
  simp only [highByte, encode, Scanline.get_mk, Vector.getElem_ofFn, row, odd]
  rfl

theorem colour_decode (bytes : Vector UInt8 16) (x y : Fin 8) :
    (decode bytes).colour x y =
      pixelColour (lowByte bytes y) (highByte bytes y) (.ofNat x.val) := by
  change (decode bytes).rows[y.val][x.val] = _
  simp only [decode, Vector.getElem_ofFn]
  rfl

theorem toNat_colour_decode (bytes : Vector UInt8 16) (x y : Fin 8) :
    ((decode bytes).colour x y).toNat =
      2 * ((highByte bytes y).toNat.testBit (7 - x.val)).toNat +
        ((lowByte bytes y).toNat.testBit (7 - x.val)).toNat := by
  rw [colour_decode, toNat_pixelColour]

theorem isTwoBit_decode (bytes : Vector UInt8 16) : (decode bytes).IsTwoBit := by
  intro x y
  rw [colour_decode]
  exact pixelColour_le _ _ _

/-! ## There and back -/

theorem encode_decode (bytes : Vector UInt8 16) : encode (decode bytes) = bytes := by
  have low (y : Fin 8) : lowByte (encode (decode bytes)) y = lowByte bytes y := by
    rw [lowByte_encode]
    refine plane_eq fun x => ?_
    have colour := toNat_colour_decode bytes x y
    rw [Tile.colour] at colour
    rw [colour, (testBit_two_bits _ _).1]
  have high (y : Fin 8) : highByte (encode (decode bytes)) y = highByte bytes y := by
    rw [highByte_encode]
    refine plane_eq fun x => ?_
    have colour := toNat_colour_decode bytes x y
    rw [Tile.colour] at colour
    rw [colour, (testBit_two_bits _ _).2]
  refine Vector.ext fun offset bound => ?_
  -- The planes take turns: an even place holds low bits, an odd one high bits.
  obtain ⟨row, rfl | rfl⟩ : ∃ row, offset = 2 * row ∨ offset = 2 * row + 1 :=
    ⟨offset / 2, by omega⟩
  · exact low ⟨row, by omega⟩
  · exact high ⟨row, by omega⟩

theorem decode_encode {tile : Tile} (twoBit : tile.IsTwoBit) : decode (encode tile) = tile := by
  refine eq_of_colour fun x y => UInt8.toNat_inj.1 ?_
  have small := UInt8.le_iff_toNat_le.1 (twoBit x y)
  rw [toNat_colour_decode, lowByte_encode, highByte_encode, testBit_plane, testBit_plane]
  exact two_bits small

/-- The sixteen bytes of a tile stand for the tiles of two bits a colour one to one. The colour of a
pixel is made of the bits in its column, counted from the top, of the two bytes of its row; and the
columns and rows of a tile wrap around. -/
theorem decode_bijOn :
    Set.BijOn decode Set.univ {tile | tile.IsTwoBit} ∧
    (∀ (bytes : Vector UInt8 16) (x y : Fin 8),
      ((decode bytes).colour x y).toNat =
        2 * ((bytes.get ⟨2 * y.val + 1, high_lt y⟩).toNat.testBit (7 - x.val)).toNat +
          ((bytes.get ⟨2 * y.val, low_lt y⟩).toNat.testBit (7 - x.val)).toNat) ∧
    ∀ (tile : Tile) (x y : UInt8),
      tile.pixel x y = tile.colour (Fin.ofNat 8 x.toNat) (Fin.ofNat 8 y.toNat) := by
  have inverse : Set.InvOn encode decode Set.univ {tile | tile.IsTwoBit} :=
    ⟨fun bytes _ => encode_decode bytes, fun _ twoBit => decode_encode twoBit⟩
  refine ⟨?_, ?_, ?_⟩
  · exact inverse.bijOn (fun bytes _ => isTwoBit_decode bytes) fun _ _ => Set.mem_univ _
  · exact toNat_colour_decode
  · exact fun tile x y => rfl

end Tile

end DotMatrix
