import DotMatrix.Proofs.Bounded.Alu
import DotMatrix.Proofs.Video.Picture
import DotMatrix.Proofs.Video.Sources

/-!
# Lines without faults

A line is drawn column by column, each pixel fetched on its own: the cell's address, the tile's, its
row's and the byte behind that are sums of words, the bit of a pixel is a place in a byte, and the
columns are counted. The counter is a byte under the background and a signed word under the window,
whose left edge may lie seven columns off the screen. None of these calculations has a fault, and
the line that they give is the one drawn from rows of tiles.

Results:
1. `TileNumbering.rowAddressChecked_eq`, `TileMap.cellAddressChecked_eq`: addresses.
2. `Scanline.outcome_fetchPixel`: a pixel.
3. `Scanline.outcome_renderChecked`: a line.
-/

namespace DotMatrix

open Memory

/-! ## Addresses -/

theorem toNat_and_seven_lt (byte : UInt8) : (byte &&& 0x07).toNat < 8 := by
  rw [toNat_and_seven]
  exact Nat.mod_lt _ (by decide)

namespace TileNumbering

/-- The address of a tile. The sum of the second numbering wraps around. -/
def tileAddressChecked (numbering : TileNumbering) (number : UInt8) : Checked UInt16 :=
  match numbering with
  | .unsigned => do
    let offset ← Checked.mul number.toUInt16 tileBytes
    Checked.add 0x8000 offset
  | .signed => do
    let offset ← Checked.mul number.toInt8.toInt16 16
    return 0x9000 + offset.toUInt16

/-- The address of the two bytes of a tile's row. -/
def rowAddressChecked (numbering : TileNumbering) (number row : UInt8) : Checked UInt16 := do
  let address ← numbering.tileAddressChecked number
  let offset ← Checked.mul (row &&& 0x07).toUInt16 2
  Checked.add address offset

theorem tileAddressChecked_eq (numbering : TileNumbering) (number : UInt8) :
    numbering.tileAddressChecked number = .ok (numbering.tileAddress number) := by
  revert number
  cases numbering with
  | unsigned => exact BitField.forall_byte (by decide +kernel)
  | signed => exact BitField.forall_byte (by decide +kernel)

theorem rowAddressChecked_eq (numbering : TileNumbering) (number row : UInt8) :
    numbering.rowAddressChecked number row = .ok (numbering.rowAddress number row) := by
  have inTile := toNat_and_seven_lt row
  have first : (numbering.tileAddress number).toNat ≤ 0x97FF := by
    simpa [rowAddress, UInt16.le_iff_toNat_le] using (tileByte_of_row numbering number 0).1.2
  have offset : Checked.mul (row &&& 0x07).toUInt16 2 = .ok ((row &&& 0x07).toUInt16 * 2) :=
    Checked.mul_eq_ok (by
      simp only [FixedWidth.toInt_word, UInt16.toNat_mul, UInt8.toNat_toUInt16, UInt16.reduceToNat]
      omega)
  rw [rowAddressChecked, tileAddressChecked_eq, Checked.ok_bind, offset, Checked.ok_bind]
  refine Checked.add_eq_ok ?_
  simp only [FixedWidth.toInt_word, rowAddress, UInt16.toNat_add, UInt16.toNat_mul,
    UInt8.toNat_toUInt16, UInt16.reduceToNat]
  omega

end TileNumbering

namespace TileMap

/-- The address of a cell; columns and rows wrap around. -/
def cellAddressChecked (map : TileMap) (column row : UInt8) : Checked UInt16 := do
  let rows ← Checked.mul (row.toUInt16 % side) side
  let address ← Checked.add map.base rows
  Checked.add address (column.toUInt16 % side)

theorem cellAddressChecked_eq (map : TileMap) (column row : UInt8) :
    map.cellAddressChecked column row = .ok (map.cellAddress column row) := by
  have base : map.base.toNat ≤ 0x9C00 := by
    cases map <;> decide
  have rows : Checked.mul (row.toUInt16 % side) side = .ok (row.toUInt16 % side * side) :=
    Checked.mul_eq_ok (by
      simp only [FixedWidth.toInt_word, side, UInt16.toNat_mul, UInt16.toNat_mod,
        UInt8.toNat_toUInt16, UInt16.reduceToNat]
      omega)
  have address : Checked.add map.base (row.toUInt16 % side * side) =
      .ok (map.base + row.toUInt16 % side * side) := Checked.add_eq_ok (by
    simp only [FixedWidth.toInt_word, side, UInt16.toNat_add, UInt16.toNat_mul, UInt16.toNat_mod,
      UInt8.toNat_toUInt16, UInt16.reduceToNat]
    omega)
  rw [cellAddressChecked, rows, Checked.ok_bind, address, Checked.ok_bind]
  refine Checked.add_eq_ok ?_
  simp only [FixedWidth.toInt_word, cellAddress, side, UInt16.toNat_add, UInt16.toNat_mul,
    UInt16.toNat_mod, UInt8.toNat_toUInt16, UInt16.reduceToNat]
  omega

end TileMap

/-! ## Pixels -/

/-- The colour of the pixel in column `x` of a row. -/
def pixelColourChecked (low high x : UInt8) : Checked UInt8 := do
  let place ← Checked.sub 7 (x &&& 0x07)
  let highBit ← Checked.shiftRight high place
  let upper ← Checked.shiftLeft (highBit &&& 0x01) 1
  let lowBit ← Checked.shiftRight low place
  return upper ||| (lowBit &&& 0x01)

theorem pixelColourChecked_eq (low high x : UInt8) :
    pixelColourChecked low high x = .ok (pixelColour low high x) := by
  have inTile := toNat_and_seven_lt x
  have toNat_place : (7 - (x &&& 0x07)).toNat = 7 - (x &&& 0x07).toNat :=
    UInt8.toNat_sub_of_le _ _ (UInt8.le_iff_toNat_le.2 (Nat.le_of_lt_succ inTile))
  have place : Checked.sub 7 (x &&& 0x07) = .ok (7 - (x &&& 0x07)) := Checked.sub_eq_ok (by
    simp only [FixedWidth.toInt_byte, toNat_place, UInt8.reduceToNat]
    omega)
  have small : 7 - (x &&& 0x07) < 8 := by
    rw [UInt8.lt_iff_toNat_lt, toNat_place]
    exact Nat.lt_succ_of_le (Nat.sub_le _ _)
  have shifted (byte : UInt8) : Checked.shiftRight byte (7 - (x &&& 0x07)) =
      .ok (byte >>> (7 - (x &&& 0x07))) := if_pos small
  simp only [pixelColourChecked, place, shifted, Checked.ok_bind]
  rfl

namespace Scanline

/-- The colour of a pixel of the plane of a map. -/
def fetchPixel (numbering : TileNumbering) (map : TileMap) (x y : UInt8) :
    CheckedTransaction UInt8 := do
  let cell ← map.cellAddressChecked (x / 8) (y / 8)
  let number ← Bus.read cell
  let address ← numbering.rowAddressChecked number (y % 8)
  let low ← Bus.read address
  let next ← Checked.add address 1
  let high ← Bus.read next
  pixelColourChecked low high (x % 8)

open CheckedTransaction

variable {μ : Type} [Memory μ]

theorem outcome_fetchPixel (numbering : TileNumbering) (map : TileMap) (x y : UInt8)
    (memory : μ) :
    (fetchPixel numbering map x y).outcome memory =
      .ok (planePixel memory numbering map x.toNat y.toNat, memory) := by
  have next (number row : UInt8) : Checked.add (numbering.rowAddress number row) 1 =
      .ok (numbering.rowAddress number row + 1) := by
    have inTile := (tileByte_of_row numbering number row).1.2
    rw [UInt16.le_iff_toNat_le] at inTile
    refine Checked.add_eq_ok ?_
    simp only [FixedWidth.toInt_word, UInt16.toNat_add, UInt16.reduceToNat] at inTile ⊢
    omega
  have column : x % 8 % 8 = x % 8 := UInt8.toNat_inj.1 (by simp)
  unfold planePixel
  rw [Tile.pixel_run_read]
  simp only [ofNat_toNat_div, ofNat_toNat_mod, column]
  rw [fetchPixel, outcome_bind_check (map.cellAddressChecked_eq _ _), outcome_bind_lift,
    outcome_bind_check (numbering.rowAddressChecked_eq _ _), outcome_bind_lift,
    outcome_bind_check (next _ _), outcome_bind_lift, outcome_check, pixelColourChecked_eq]
  rfl

/-! ## Columns -/

section

variable {α : Type} [FixedWidth α]

open FixedWidth

/-- Draws a line from left to right. The counter of the columns is asked once more than there are
columns. -/
def drawColumns (pixel : α → Fin screenWidth → CheckedTransaction UInt8) :
    CheckedTransaction Row := do
  let row ← Vector.ofFnM fun column => do
    let place ← Checked.count column.val
    pixel place column
  let _ ← (Checked.count (screenWidth + 1) : Checked α)
  return row

/-- A line comes out whose columns do, if the counter holds them. -/
theorem outcome_drawColumns {pixel : α → Fin screenWidth → CheckedTransaction UInt8}
    {colour : Fin screenWidth → UInt8} {memory : μ} (low : least α ≤ 0)
    (high : screenWidth + 1 ≤ greatest α)
    (each : ∀ column place, toInt place = column.val →
      (pixel place column).outcome memory = .ok (colour column, memory)) :
    (drawColumns pixel).outcome memory = .ok (Vector.ofFn colour, memory) := by
  have row : (Vector.ofFnM fun column => do
      let place ← Checked.count column.val
      pixel place column : CheckedTransaction Row).outcome memory =
        .ok (Vector.ofFn colour, memory) := by
    refine outcome_ofFnM fun column => ?_
    have inRow : (column.val : Int) ≤ greatest α := by omega
    rw [outcome_bind_check (Checked.count_eq_ok low inRow)]
    exact each column _ (toInt_ofInt _ (by omega) inRow)
  rw [drawColumns, outcome_bind, row, Checked.ok_bind,
    outcome_bind_check (Checked.count_eq_ok low high)]
  rfl

end

/-! ## Layers -/

/-- The background under a line. -/
def backgroundChecked (numbering : TileNumbering) (map : TileMap) (line : UInt8) :
    CheckedTransaction Row := do
  let scrollX ← Bus.read HardwareRegister.scrollX
  let scrollY ← Bus.read HardwareRegister.scrollY
  drawColumns fun (place : UInt8) _ =>
    fetchPixel numbering map (place + scrollX) (line + scrollY)

/-- A line with the window over it. Columns to the left of the window stay as they are. -/
def windowOverChecked (numbering : TileNumbering) (map : TileMap) (line : UInt8) (row : Row) :
    CheckedTransaction Row := do
  let windowY ← Bus.read HardwareRegister.windowY
  if line < windowY then
    return row
  else
    let y ← Checked.sub line windowY
    let windowX ← Bus.read HardwareRegister.windowX
    let left ← Checked.sub (Alu.toSigned windowX) 7
    drawColumns fun (place : Int16) column => do
      let x ← Checked.sub place left
      if x < 0 then
        return row.get column
      else
        fetchPixel numbering map x.toUInt16.toUInt8 y

/-- What a line shows. -/
def renderChecked (line : UInt8) : CheckedTransaction Row := do
  let control ← Bus.readControl
  let numbering := TileNumbering.ofControl control
  let row ←
    if control.backgroundEnabled then
      backgroundChecked numbering (.select control.backgroundMapHigh) line
    else
      pure Row.blank
  if control.windowEnabled then
    windowOverChecked numbering (.select control.windowMapHigh) line row
  else
    return row

theorem outcome_backgroundChecked (numbering : TileNumbering) (map : TileMap) (line : UInt8)
    (memory : μ) :
    (backgroundChecked numbering map line).outcome memory =
      .ok ((background numbering map line).run memory) := by
  rw [run_background, backgroundChecked, outcome_bind_lift, outcome_bind_lift]
  refine outcome_drawColumns (by decide) (by decide) fun column place counted => ?_
  have counted : place.toNat = column.val := Int.ofNat_inj.1 counted
  rw [outcome_fetchPixel, UInt8.toNat_add, UInt8.toNat_add, counted]
  rfl

/-- A signed word that is a byte becomes that byte. -/
theorem toNat_toUInt8_signed {word : Int16} (value : Nat) (same : word.toInt = value)
    (small : value < 256) : word.toUInt16.toUInt8.toNat = value := by
  have signed : word.toInt = (word.toUInt16.toNat : Int).bmod 65536 :=
    BitVec.toInt_eq_toNat_bmod word.toUInt16.toBitVec
  have := word.toUInt16.toNat_lt
  rw [Int.bmod_def] at signed
  rw [UInt16.toNat_toUInt8]
  omega

theorem outcome_windowOverChecked (numbering : TileNumbering) (map : TileMap) (line : UInt8)
    (row : Row) (memory : μ) :
    (windowOverChecked numbering map line row).outcome memory =
      .ok ((windowOver numbering map line row).run memory) := by
  rw [run_windowOver, windowOverChecked, outcome_bind_lift, Transaction.run_read]
  generalize load memory HardwareRegister.windowY = windowY
  by_cases above : line < windowY
  · have outside := UInt8.lt_iff_toNat_lt.1 above
    rw [if_pos above, outcome_pure]
    refine congrArg (fun row => Except.ok (row, memory)) (Vector.ext fun column bound => ?_)
    rw [Vector.getElem_ofFn]
    exact (if_neg fun both => Nat.not_lt_of_le both.1 outside).symm
  · have within := UInt8.not_lt.1 above
    have toNat_y := UInt8.toNat_sub_of_le _ _ within
    have y : Checked.sub line windowY = .ok (line - windowY) := Checked.sub_eq_ok (by
      have := UInt8.le_iff_toNat_le.1 within
      simp only [FixedWidth.toInt_byte, toNat_y]
      omega)
    rw [if_neg above, outcome_bind_check y, outcome_bind_lift, Transaction.run_read]
    generalize load memory HardwareRegister.windowX = windowX
    have := windowX.toNat_lt
    obtain ⟨left, toInt_left⟩ := Alu.sub_signed (a := Alu.toSigned windowX) (b := 7)
      (by simp only [Alu.toInt_toSigned, Int16.reduceToInt]; omega)
      (by simp only [Alu.toInt_toSigned, Int16.reduceToInt]; omega)
    simp only [Alu.toInt_toSigned, Int16.reduceToInt] at toInt_left
    rw [outcome_bind_check left]
    refine outcome_drawColumns (by decide) (by decide) fun column place counted => ?_
    have bound : column.val < 160 := column.isLt
    rw [FixedWidth.toInt_signed] at counted
    obtain ⟨x, toInt_x⟩ := Alu.sub_signed (a := place) (b := Alu.toSigned windowX - 7)
      (by omega) (by omega)
    rw [outcome_bind_check x]
    by_cases reaches : windowX.toNat ≤ column.val + 7
    · have inside : ¬place - (Alu.toSigned windowX - 7) < 0 := by
        rw [Int16.lt_iff_toInt_lt, toInt_x, Int16.toInt_zero]
        omega
      rw [if_neg inside, outcome_fetchPixel, toNat_y,
        toNat_toUInt8_signed (column.val + 7 - windowX.toNat) (by omega) (by omega),
        if_pos ⟨UInt8.le_iff_toNat_le.1 within, reaches⟩]
    · have outside : place - (Alu.toSigned windowX - 7) < 0 := by
        rw [Int16.lt_iff_toInt_lt, toInt_x, Int16.toInt_zero]
        omega
      rw [if_pos outside, outcome_pure, if_neg fun both => reaches both.2]

theorem outcome_renderChecked (line : UInt8) (memory : μ) :
    (renderChecked line).outcome memory = .ok ((render line).run memory) := by
  rw [renderChecked, render, outcome_bind_lift, Transaction.run_bind]
  obtain ⟨control, memory⟩ := Bus.readControl.run memory
  dsimp only
  have window (row : Row) (memory : μ) :
      (if control.windowEnabled then
        windowOverChecked (.ofControl control) (.select control.windowMapHigh) line row
      else pure row : CheckedTransaction Row).outcome memory =
      .ok ((if control.windowEnabled then
        windowOver (.ofControl control) (.select control.windowMapHigh) line row
      else pure row : Transaction Row).run memory) := by
    split
    · exact outcome_windowOverChecked _ _ line row memory
    · rfl
  split
  · rw [outcome_bind, outcome_backgroundChecked, Transaction.run_bind]
    exact window _ _
  · exact window _ _

end Scanline

end DotMatrix
