import DotMatrix.Video.Rgb
import Mathlib.Algebra.Group.Nat.Defs

/-!
# The shades of a picture

A palette is a number of four digits to base four: the digit for a colour is its shade. The picture
of a frame has the grey of that shade in all three bytes of the pixel, and the pixels stand line by
line. As long as no two colours share a shade, the picture tells everything about the frame.

Results:
1. `toNat_grey`: the grey of a colour as a number.
2. `picture_eq_iff`: two frames give one picture if they have the same greys.
3. `picture_faithful`: the bytes of a picture, and when they give the frame away.
-/

namespace DotMatrix.Rgb

/-! ## Greys -/

/-- The shade of a colour under a palette. -/
def shadeOf (palette : UInt8) (colour : Nat) : Nat := palette.toNat / 4 ^ colour % 4

/-- No two colours have the same shade. -/
def IsDistinct (palette : UInt8) : Prop :=
  ∀ colour other : Fin 4, shadeOf palette colour = shadeOf palette other → colour = other

instance : DecidablePred IsDistinct := fun palette =>
  inferInstanceAs (Decidable
    (∀ colour other : Fin 4, shadeOf palette colour = shadeOf palette other → colour = other))

theorem toNat_shade (entry : UInt8) : (shade entry).toNat = 255 - 85 * (entry.toNat % 4) := by
  revert entry
  exact BitField.forall_byte (by decide +kernel)

/-- Only the lowest two bits of a colour count. -/
theorem toNat_place (colour : UInt8) : ((colour &&& 0x03) * 2).toNat = 2 * (colour.toNat % 4) := by
  revert colour
  exact BitField.forall_byte (by decide +kernel)

theorem toNat_grey (palette colour : UInt8) :
    (grey palette colour).toNat = 255 - 85 * shadeOf palette (colour.toNat % 4) := by
  have inByte : 2 * (colour.toNat % 4) % 8 = 2 * (colour.toNat % 4) := by omega
  rw [grey, toNat_shade, UInt8.toNat_shiftRight, toNat_place, inByte, Nat.shiftRight_eq_div_pow,
    Nat.pow_mul, shadeOf]

theorem grey_eq_iff (palette colour other : UInt8) :
    grey palette colour = grey palette other ↔
      shadeOf palette (colour.toNat % 4) = shadeOf palette (other.toNat % 4) := by
  have small (number : Nat) : shadeOf palette number < 4 := Nat.mod_lt _ (by decide)
  have := small (colour.toNat % 4)
  have := small (other.toNat % 4)
  rw [← UInt8.toNat_inj, toNat_grey, toNat_grey]
  omega

theorem grey_eq_iff_of_isDistinct {palette : UInt8} (distinct : IsDistinct palette)
    (colour other : UInt8) :
    grey palette colour = grey palette other ↔ colour.toNat % 4 = other.toNat % 4 := by
  have inPalette (byte : UInt8) : byte.toNat % 4 < 4 := Nat.mod_lt _ (by decide)
  rw [grey_eq_iff]
  constructor
  · intro shades
    exact Fin.mk.inj (distinct ⟨_, inPalette colour⟩ ⟨_, inPalette other⟩ shades)
  · intro same
    rw [same]

/-! ## Pictures -/

/-- The frames have the same colours, as far as colours count. -/
def SameColours (frame other : Frame) : Prop :=
  ∀ (x : Fin screenWidth) (y : Fin screenHeight),
    ((frame.get y).get x).toNat % 4 = ((other.get y).get x).toNat % 4

theorem getElem?_picture (frame : Frame) (palette : UInt8) (x : Fin screenWidth)
    (y : Fin screenHeight) (k : Fin 3) :
    (picture frame palette).toArray[3 * (screenWidth * y.val + x.val) + k.val]? =
      some (grey palette ((frame.get y).get x)) := by
  have inside : 3 * (screenWidth * y.val + x.val) + k.val < screenHeight * screenWidth * 3 := by
    have := x.isLt
    have := y.isLt
    simp only [screenWidth, screenHeight] at *
    omega
  have byte := getElem_picture frame palette x y k x.isLt y.isLt k.isLt inside
  rw [Array.getElem?_eq_getElem (by rw [Vector.size_toArray]; exact inside), Vector.getElem_toArray,
    byte]
  rfl

/-- Every byte of a picture belongs to a pixel. -/
theorem exists_pixel {place : Nat} (inside : place < screenHeight * screenWidth * 3) :
    ∃ (x : Fin screenWidth) (y : Fin screenHeight) (k : Fin 3),
      place = 3 * (screenWidth * y.val + x.val) + k.val := by
  refine ⟨⟨place / 3 % screenWidth, ?_⟩, ⟨place / 3 / screenWidth, ?_⟩, ⟨place % 3, ?_⟩, ?_⟩
  all_goals simp only [screenWidth, screenHeight] at *; omega

theorem picture_eq_iff (frame other : Frame) (palette : UInt8) :
    picture frame palette = picture other palette ↔
      ∀ (x : Fin screenWidth) (y : Fin screenHeight),
        grey palette ((frame.get y).get x) = grey palette ((other.get y).get x) := by
  constructor
  · intro same x y
    have byte := getElem?_picture frame palette x y 0
    rw [same, getElem?_picture other palette x y 0] at byte
    exact (Option.some.inj byte).symm
  · intro greys
    refine Vector.toArray_inj.1 (Array.ext_getElem? fun place => ?_)
    by_cases inside : place < screenHeight * screenWidth * 3
    · obtain ⟨x, y, k, rfl⟩ := exists_pixel inside
      rw [getElem?_picture, getElem?_picture, greys]
    · have outside := Nat.le_of_not_lt inside
      rw [Array.getElem?_eq_none (by rw [Vector.size_toArray]; exact outside),
        Array.getElem?_eq_none (by rw [Vector.size_toArray]; exact outside)]

/-! ## What a picture tells -/

/-- A frame of one colour. -/
def filled (colour : UInt8) : Frame := .replicate _ (.replicate _ colour)

theorem get_filled (colour : UInt8) (x : Fin screenWidth) (y : Fin screenHeight) :
    ((filled colour).get y).get x = colour := by
  change (filled colour)[y.val][x.val] = colour
  simp only [filled, Vector.getElem_replicate]

/-- Frames filled with two colours of one shade have the same picture. -/
theorem isDistinct_of_sameColours {palette : UInt8}
    (told : ∀ frame other : Frame, picture frame palette = picture other palette →
      SameColours frame other) : IsDistinct palette := by
  intro colour other shades
  have small (number : Fin 4) : (UInt8.ofNat number.val).toNat % 4 = number.val := by
    revert number
    decide
  have greys : grey palette (.ofNat colour.val) = grey palette (.ofNat other.val) := by
    rw [grey_eq_iff, small, small, shades]
  have alike : picture (filled (.ofNat colour.val)) palette =
      picture (filled (.ofNat other.val)) palette := by
    refine (picture_eq_iff _ _ _).2 fun x y => ?_
    rw [get_filled, get_filled, greys]
  have same := told _ _ alike ⟨0, by decide⟩ ⟨0, by decide⟩
  rw [get_filled, get_filled, small, small] at same
  exact Fin.ext same

/-- A picture has three bytes for each pixel, line by line: 255 for white, and 85 less for each step
of the pixel's shade. The palettes under which frames with other colours always give another picture
are those that have a shade of its own for every colour. -/
theorem picture_faithful (palette : UInt8) :
    (∀ frame, (picture frame palette).toArray.size = 160 * 144 * 3) ∧
    (∀ (frame : Frame) (x : Fin screenWidth) (y : Fin screenHeight) (k : Fin 3),
      (picture frame palette).toArray[3 * (160 * y.val + x.val) + k.val]?.map UInt8.toNat =
        some (255 - 85 * shadeOf palette (((frame.get y).get x).toNat % 4))) ∧
    (IsDistinct palette ↔
      ∀ frame other : Frame,
        picture frame palette = picture other palette ↔ SameColours frame other) := by
  refine ⟨?_, ?_, ?_, ?_⟩
  · exact fun frame => Vector.size_toArray _
  · intro frame x y k
    rw [getElem?_picture, Option.map_some, toNat_grey]
  · intro distinct frame other
    rw [picture_eq_iff]
    exact forall₂_congr fun x y => grey_eq_iff_of_isDistinct distinct _ _
  · exact fun told => isDistinct_of_sameColours fun frame other => (told frame other).1

/-- The palette that shows every colour as its own number. -/
example : IsDistinct 0xE4 := by decide

/-- The palette at power-on shows three colours in black. -/
example : ¬IsDistinct 0xFC := by decide

end DotMatrix.Rgb
