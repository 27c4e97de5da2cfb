import DotMatrix.Video.Scanline

/-!
# Pictures

A frame as a picture of three bytes per pixel, line by line. The palette holds two bits of shade for
each colour, the lowest bits for colour zero.
-/

namespace DotMatrix.Rgb

/-- The grey of a shade, from white to black in equal steps; bits above the lowest two do not
count. -/
def shade (entry : UInt8) : UInt8 :=
  if entry &&& 0x03 = 0 then 0xFF
  else if entry &&& 0x03 = 1 then 0xAA
  else if entry &&& 0x03 = 2 then 0x55
  else 0x00

/-- The grey of a colour under a palette. -/
def grey (palette colour : UInt8) : UInt8 := shade (palette >>> ((colour &&& 0x03) * 2))

/-- The bytes of a picture. -/
abbrev Picture := Vector UInt8 (screenHeight * screenWidth * 3)

/-- The picture of a frame under a palette. -/
def picture (frame : Frame) (palette : UInt8) : Picture :=
  (frame.flatten.map fun colour => Vector.replicate 3 (grey palette colour)).flatten

/-- The three bytes of a pixel are its grey: the pixels follow one another line by line. -/
theorem getElem_picture (frame : Frame) (palette : UInt8) (x y k : Nat) (hx : x < screenWidth)
    (hy : y < screenHeight) (hk : k < 3)
    (h : 3 * (screenWidth * y + x) + k < screenHeight * screenWidth * 3) :
    (picture frame palette)[3 * (screenWidth * y + x) + k] = grey palette frame[y][x] := by
  have pixel : (3 * (screenWidth * y + x) + k) / 3 = screenWidth * y + x := by omega
  have line : (screenWidth * y + x) / screenWidth = y := by
    rw [Nat.mul_add_div (by decide), Nat.div_eq_of_lt hx, Nat.add_zero]
  have column : (screenWidth * y + x) % screenWidth = x := by
    rw [Nat.mul_add_mod, Nat.mod_eq_of_lt hx]
  simp [picture, Vector.getElem_flatten, pixel, line, column]

end DotMatrix.Rgb
