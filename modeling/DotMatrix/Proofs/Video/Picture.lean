import DotMatrix.Memory.Flat
import DotMatrix.Proofs.Video.Sources
import DotMatrix.Video.Raster

/-!
# What a line shows

A line is drawn from rows of tiles, each fetched once for the eight columns that it covers. Here the
line is compared with a picture given pixel by pixel: the window where it is enabled and reaches, the
background elsewhere, colour zero without either. The pixels of that picture are given twice, with
whole tiles, and as bits at addresses that are plain numbers.

Results:
1. `pixel_readLine`: a column of a line of a plane is the pixel of the tile there.
2. `toNat_planePixel`: a pixel of a plane as bits in memory.
3. `run_background`, `run_windowOver`: the two layers, column by column.
4. `run_render`: a line is the reference, and drawing it leaves the memory alone.
5. `render_pixel`: so is the line of any frame that it is drawn into.
-/

namespace DotMatrix

open Memory

/-! ## Colours as numbers -/

theorem toNat_shiftedBit (byte : UInt8) (column : Fin 8) :
    ((byte >>> (7 - (UInt8.ofNat column.val &&& 0x07))) &&& 0x01).toNat =
      (byte.toNat.testBit (7 - column.val)).toNat := by
  revert byte
  refine BitField.forall_byte fun byte => ?_
  revert byte column
  decide +kernel

/-- The high bit of a colour counts two. Columns go from the top bit down. -/
theorem toNat_pixelColour (low high : UInt8) (column : Fin 8) :
    (pixelColour low high (.ofNat column.val)).toNat =
      2 * (high.toNat.testBit (7 - column.val)).toNat +
        (low.toNat.testBit (7 - column.val)).toNat := by
  have join (upper lower : Bool) : upper.toNat <<< 1 % 256 ||| lower.toNat =
      2 * upper.toNat + lower.toNat := by
    revert upper lower
    decide
  rw [← join, ← toNat_shiftedBit, ← toNat_shiftedBit]
  simp only [pixelColour, UInt8.toNat_or, UInt8.toNat_shiftLeft]
  rfl

example : [0, 1, 2, 3].map (pixelColour 0xA0 0xC0) = [3, 2, 1, 0] := by decide

/-! ## Tiles in memory -/

namespace DisplayControl

theorem contains_bit (byte : UInt8) (place : Fin 8) :
    (BitField.retain byte : DisplayControl).contains ⟨1 <<< UInt8.ofNat place.val⟩ =
      byte.toNat.testBit place := by
  revert byte
  refine BitField.forall_byte fun byte => ?_
  revert byte place
  decide +kernel

theorem backgroundEnabled_retain (byte : UInt8) :
    backgroundEnabled (.retain byte) = byte.toNat.testBit 0 := contains_bit byte 0

theorem backgroundMapHigh_retain (byte : UInt8) :
    backgroundMapHigh (.retain byte) = byte.toNat.testBit 3 := contains_bit byte 3

theorem unsignedTiles_retain (byte : UInt8) :
    unsignedTiles (.retain byte) = byte.toNat.testBit 4 := contains_bit byte 4

theorem windowEnabled_retain (byte : UInt8) :
    windowEnabled (.retain byte) = byte.toNat.testBit 5 := contains_bit byte 5

theorem windowMapHigh_retain (byte : UInt8) :
    windowMapHigh (.retain byte) = byte.toNat.testBit 6 := contains_bit byte 6

end DisplayControl

namespace TileNumbering

/-- The two bytes of a row stand together at twice the row's number. -/
theorem rowAddress_eq (numbering : TileNumbering) (number row : UInt8) :
    numbering.rowAddress number row =
      numbering.tileAddress number + .ofNat (2 * (row.toNat % 8)) := by
  unfold rowAddress
  congr 1
  apply UInt16.toNat_inj.1
  rw [UInt16.toNat_mul, UInt8.toNat_toUInt16, toNat_and_seven]
  simp
  omega

end TileNumbering

namespace Tile

variable {μ : Type} [Memory μ]

theorem run_read (numbering : TileNumbering) (number : UInt8) (memory : μ) :
    (read numbering number).run memory =
      (decode (Vector.ofFn fun offset : Fin 16 =>
        load memory (numbering.tileAddress number + .ofNat offset.val)), memory) := by
  unfold read
  rw [Transaction.run_map, Transaction.run_ofFnM _ memory fun _ => rfl]
  rfl

theorem pixel_decode (bytes : Vector UInt8 16) (x y : UInt8) :
    (decode bytes).pixel x y =
      pixelColour bytes[2 * (y.toNat % 8)] bytes[2 * (y.toNat % 8) + 1]
        (.ofNat (x.toNat % 8)) := by
  simp [decode, pixel]

/-- A pixel of a tile needs only the two bytes of its row. -/
theorem pixel_run_read (numbering : TileNumbering) (number x y : UInt8) (memory : μ) :
    ((read numbering number).run memory).1.pixel x y =
      pixelColour (load memory (numbering.rowAddress number y))
        (load memory (numbering.rowAddress number y + 1)) (.ofNat (x.toNat % 8)) := by
  have next : numbering.rowAddress number y + 1 =
      numbering.tileAddress number + .ofNat (2 * (y.toNat % 8) + 1) := by
    rw [TileNumbering.rowAddress_eq, UInt16.add_assoc, UInt16.ofNat_add]
    rfl
  rw [run_read, pixel_decode, next, TileNumbering.rowAddress_eq]
  simp

end Tile

theorem pixelColour_le (low high x : UInt8) : pixelColour low high x ≤ 3 := by
  have bit (byte place : UInt8) : ((byte >>> place) &&& 0x01).toNat < 2 := by
    rw [UInt8.toNat_and]
    exact Nat.lt_of_le_of_lt Nat.and_le_right (by decide)
  unfold pixelColour
  rw [UInt8.le_iff_toNat_le, UInt8.toNat_or, UInt8.toNat_shiftLeft]
  refine Nat.le_of_lt_succ (Nat.or_lt_two_pow (n := 2) ?_ ?_)
  · refine Nat.lt_of_le_of_lt (Nat.mod_le _ _) ?_
    have := bit high (7 - (x &&& 0x07))
    simp [Nat.shiftLeft_eq] at this ⊢
    omega
  · exact Nat.lt_trans (bit low _) (by decide)

/-! ## Planes -/

namespace Scanline

variable {μ : Type} [Memory μ]

/-- The colour of a pixel of the plane of a map: the number in the cell there, the tile of that
number, and the pixel's place in the tile. -/
def planePixel (memory : μ) (numbering : TileNumbering) (map : TileMap) (u v : Nat) : UInt8 :=
  let number := ((map.readNumber (.ofNat (u / 8)) (.ofNat (v / 8))).run memory).1
  ((Tile.read numbering number).run memory).1.pixel (.ofNat (u % 8)) (.ofNat (v % 8))

theorem ofNat_toNat_div (byte : UInt8) : UInt8.ofNat (byte.toNat / 8) = byte / 8 := by
  apply UInt8.toNat_inj.1
  have := byte.toNat_lt
  simp
  omega

theorem ofNat_toNat_mod (byte : UInt8) : UInt8.ofNat (byte.toNat % 8) = byte % 8 := by
  apply UInt8.toNat_inj.1
  simp
  omega

/-- A column of a line of a plane is the pixel of the tile there. -/
theorem pixel_readLine (numbering : TileNumbering) (map : TileMap) (x y : UInt8) (memory : μ) :
    ((readLine numbering map y).run memory).1.pixel x =
      planePixel memory numbering map x.toNat y.toNat := by
  have small : (x % 8).toNat % 8 = x.toNat % 8 := by simp
  unfold planePixel PlaneLine.pixel
  rw [Tile.pixel_run_read, ofNat_toNat_div y, ofNat_toNat_mod x, ofNat_toNat_mod y, small,
    ofNat_toNat_mod x, run_readLine]
  simp only [Vector.getElem_ofFn, run_readTileRow]
  rfl

theorem planePixel_le (memory : μ) (numbering : TileNumbering) (map : TileMap) (u v : Nat) :
    planePixel memory numbering map u v ≤ 3 := by
  unfold planePixel
  rw [Tile.pixel_run_read]
  exact pixelColour_le _ _ _

/-! ## Planes in plain numbers -/

/-- The address of a tile: tiles have sixteen bytes each, from $8000 on if their numbers have no
sign, else around $9000. -/
def tilePlace (unsignedTiles : Bool) (number : UInt8) : Nat :=
  if unsignedTiles then 0x8000 + 16 * number.toNat
  else (0x9000 + 16 * number.toInt8.toInt).toNat

/-- The colour of a pixel of the plane of the map that begins at `base`. A cell of the map holds the
number of a tile; a row of the tile is two bytes, and a colour a bit of each, the leftmost in the top
bits. The bit of the second byte counts two. -/
def planeColour (memory : μ) (unsignedTiles : Bool) (base u v : Nat) : Nat :=
  let number := load memory (.ofNat (base + 32 * (v / 8) + u / 8))
  let row := tilePlace unsignedTiles number + 2 * (v % 8)
  let bit (address : Nat) := ((load memory (.ofNat address)).toNat.testBit (7 - u % 8)).toNat
  2 * bit (row + 1) + bit row

/-- The numbering of a bit of the display control. -/
def numbering (unsignedTiles : Bool) : TileNumbering :=
  if unsignedTiles then .unsigned else .signed

theorem numbering_ofControl (byte : UInt8) :
    TileNumbering.ofControl (.retain byte) = numbering (byte.toNat.testBit 4) := by
  rw [TileNumbering.ofControl, DisplayControl.unsignedTiles_retain]
  rfl

theorem toNat_tileAddress_eq (unsignedTiles : Bool) (number : UInt8) :
    ((numbering unsignedTiles).tileAddress number).toNat = tilePlace unsignedTiles number := by
  have := number.toNat_lt
  have signed : number.toInt8.toInt = (number.toNat : Int).bmod 256 := BitVec.toInt_eq_toNat_bmod _
  rw [toNat_tileAddress]
  cases unsignedTiles with
  | true => simp [numbering, tilePlace, Nat.mul_comm]
  | false =>
    simp only [numbering, tilePlace, Bool.false_eq_true, if_false, signed, Int.bmod_def]
    split <;> split <;> omega

theorem cellAddress_eq (map : TileMap) {u v : Nat} (inRow : u < 256) (inPlane : v < 256) :
    map.cellAddress (.ofNat (u / 8)) (.ofNat (v / 8)) =
      .ofNat (map.base.toNat + 32 * (v / 8) + u / 8) := by
  have base := map.toNat_base
  apply UInt16.toNat_inj.1
  rw [toNat_cellAddress, UInt16.toNat_ofNat', UInt8.toNat_ofNat', UInt8.toNat_ofNat']
  omega

theorem rowAddress_eq (unsignedTiles : Bool) (number : UInt8) (v : Nat) :
    (numbering unsignedTiles).rowAddress number (.ofNat (v % 8)) =
      .ofNat (tilePlace unsignedTiles number + 2 * (v % 8)) := by
  have bounds := tileAddress_bounds (numbering unsignedTiles) number
  rw [toNat_tileAddress_eq] at bounds
  apply UInt16.toNat_inj.1
  rw [toNat_rowAddress, toNat_tileAddress_eq, UInt16.toNat_ofNat', UInt8.toNat_ofNat']
  omega

/-- A pixel of a plane is made of two bits in memory. -/
theorem toNat_planePixel (memory : μ) (unsignedTiles : Bool) (map : TileMap) {u v : Nat}
    (inRow : u < 256) (inPlane : v < 256) :
    (planePixel memory (numbering unsignedTiles) map u v).toNat =
      planeColour memory unsignedTiles map.base.toNat u v := by
  have column : (UInt8.ofNat (u % 8)).toNat % 8 = u % 8 := by
    rw [UInt8.toNat_ofNat']
    omega
  have found : ((map.readNumber (.ofNat (u / 8)) (.ofNat (v / 8))).run memory).1 =
      load memory (.ofNat (map.base.toNat + 32 * (v / 8) + u / 8)) :=
    congrArg (load memory) (cellAddress_eq map inRow inPlane)
  have next (row : Nat) : (UInt16.ofNat row) + 1 = .ofNat (row + 1) := (UInt16.ofNat_add row 1).symm
  rw [planePixel, found, Tile.pixel_run_read, rowAddress_eq, next, column]
  exact toNat_pixelColour _ _ ⟨u % 8, Nat.mod_lt u (by decide)⟩

/-! ## The reference -/

/-- What is seen at a column of a line: the window's plane where the window is enabled and reaches,
else the background's where that is enabled, scrolled, else nothing. Each has a bit that says whether
its map is the second one. -/
def seenAt {α : Type} (memory : μ) (plane : Bool → Nat → Nat → α) (nothing : α) (x y : Nat) : α :=
  let control := (load memory 0xFF40).toNat
  let scrollY := (load memory 0xFF42).toNat
  let scrollX := (load memory 0xFF43).toNat
  let windowY := (load memory 0xFF4A).toNat
  let windowX := (load memory 0xFF4B).toNat
  if control.testBit 5 ∧ windowY ≤ y ∧ windowX ≤ x + 7 then
    plane (control.testBit 6) (x + 7 - windowX) (y - windowY)
  else if control.testBit 0 then
    plane (control.testBit 3) ((x + scrollX) % 256) ((y + scrollY) % 256)
  else
    nothing

/-- The colour of a column of a line, from whole tiles. -/
def referencePixel (memory : μ) (x y : Nat) : UInt8 :=
  let unsignedTiles := (load memory 0xFF40).toNat.testBit 4
  seenAt memory
    (fun second => planePixel memory (numbering unsignedTiles) (if second then .high else .low)) 0 x y

/-- The colour of a column of a line, from bits in memory. -/
def referenceColour (memory : μ) (x y : Nat) : Nat :=
  let unsignedTiles := (load memory 0xFF40).toNat.testBit 4
  seenAt memory (fun second => planeColour memory unsignedTiles (if second then 0x9C00 else 0x9800))
    0 x y

/-- On the screen, two pictures are related if their planes are, pixel by pixel. -/
theorem seenAt_rel {α β : Type} {R : α → β → Prop} {plane : Bool → Nat → Nat → α}
    {plane' : Bool → Nat → Nat → β} {nothing : α} {nothing' : β} (memory : μ)
    (x : Fin screenWidth) (y : Fin screenHeight)
    (pixels : ∀ second u v, u < 256 → v < 256 → R (plane second u v) (plane' second u v))
    (none : R nothing nothing') :
    R (seenAt memory plane nothing x y) (seenAt memory plane' nothing' x y) := by
  have inLine := x.isLt
  have onScreen := y.isLt
  simp only [screenWidth, screenHeight] at inLine onScreen
  unfold seenAt
  dsimp only
  split
  · exact pixels _ _ _ (by omega) (by omega)
  · split
    · exact pixels _ _ _ (Nat.mod_lt _ (by decide)) (Nat.mod_lt _ (by decide))
    · exact none

/-- Both ways of giving a pixel are the same. -/
theorem toNat_referencePixel (memory : μ) (x : Fin screenWidth) (y : Fin screenHeight) :
    (referencePixel memory x y).toNat = referenceColour memory x y := by
  unfold referencePixel referenceColour
  refine seenAt_rel (R := fun (colour : UInt8) number => colour.toNat = number) memory x y ?_ rfl
  intro second u v inRow inPlane
  have pixel := toNat_planePixel memory ((load memory 0xFF40).toNat.testBit 4)
    (if second then .high else .low) inRow inPlane
  cases second <;> exact pixel

/-! ## Layers -/

theorem memory_readLine (numbering : TileNumbering) (map : TileMap) (y : UInt8) (memory : μ) :
    ((readLine numbering map y).run memory).2 = memory := by
  rw [run_readLine]

/-- The background wraps around in both directions. -/
theorem run_background (numbering : TileNumbering) (map : TileMap) (line : UInt8) (memory : μ) :
    (background numbering map line).run memory =
      (Vector.ofFn fun column =>
        planePixel memory numbering map
          ((column.val + (load memory HardwareRegister.scrollX).toNat) % 256)
          ((line.toNat + (load memory HardwareRegister.scrollY).toNat) % 256), memory) := by
  unfold background
  simp only [Transaction.run_bind, Transaction.run_read, Transaction.run_pure, memory_readLine]
  refine congrArg (·, memory) (Vector.ext fun column bound => ?_)
  rw [Vector.getElem_ofFn, Vector.getElem_ofFn, pixel_readLine, UInt8.toNat_add, UInt8.toNat_add,
    UInt8.toNat_ofNat', Nat.mod_add_mod]

/-- The window covers the line from its own first line and column on. -/
theorem run_windowOver (numbering : TileNumbering) (map : TileMap) (line : UInt8) (row : Row)
    (memory : μ) :
    (windowOver numbering map line row).run memory =
      (Vector.ofFn fun column =>
        let windowX := (load memory HardwareRegister.windowX).toNat
        let windowY := (load memory HardwareRegister.windowY).toNat
        if windowY ≤ line.toNat ∧ windowX ≤ column.val + 7 then
          planePixel memory numbering map (column.val + 7 - windowX) (line.toNat - windowY)
        else row.get column, memory) := by
  unfold windowOver
  rw [Transaction.run_bind]
  by_cases above : line < load memory HardwareRegister.windowY
  · have outside := UInt8.lt_iff_toNat_lt.1 above
    rw [if_pos (by exact above), Transaction.run_pure]
    refine congrArg (·, memory) (Vector.ext fun column bound => ?_)
    rw [Vector.getElem_ofFn]
    exact (if_neg fun both => Nat.not_lt_of_le both.1 outside).symm
  · have within := UInt8.le_iff_toNat_le.1 (UInt8.not_lt.1 above)
    rw [if_neg (by exact above)]
    simp only [Transaction.run_bind, Transaction.run_read, Transaction.run_pure, memory_readLine]
    refine congrArg (·, memory) (Vector.ext fun column bound => ?_)
    rw [Vector.getElem_ofFn, Vector.getElem_ofFn]
    by_cases reaches : (load memory HardwareRegister.windowX).toNat ≤ column + 7
    · have small : (UInt8.ofNat (column + 7)).toNat = column + 7 := by
        simp only [screenWidth] at bound
        exact UInt8.toNat_ofNat_of_lt' (by simp [UInt8.size]; omega)
      have column_ge := UInt8.le_iff_toNat_le.2 (small.symm ▸ reaches)
      have line_ge := UInt8.le_iff_toNat_le.2 within
      have fetched := pixel_readLine numbering map
        (.ofNat (column + 7) - load memory HardwareRegister.windowX)
        (line - load memory HardwareRegister.windowY) memory
      rw [UInt8.toNat_sub_of_le _ _ column_ge, UInt8.toNat_sub_of_le _ _ line_ge, small] at fetched
      exact (if_pos reaches).trans (fetched.trans (if_pos ⟨within, reaches⟩).symm)
    · exact (if_neg reaches).trans (if_neg fun both => reaches both.2).symm

/-! ## The whole line -/

theorem get_mk {α : Type} {count : Nat} (values : Vector α count) (index : Nat)
    (bound : index < count) : values.get ⟨index, bound⟩ = values[index] := rfl

theorem run_window (shown : Bool) (numbering : TileNumbering) (map : TileMap) (line : UInt8)
    (row : Row) (memory : μ) :
    (if shown then windowOver numbering map line row else pure row : Transaction Row).run memory =
      (Vector.ofFn fun column =>
        let windowX := (load memory HardwareRegister.windowX).toNat
        let windowY := (load memory HardwareRegister.windowY).toNat
        if shown ∧ windowY ≤ line.toNat ∧ windowX ≤ column.val + 7 then
          planePixel memory numbering map (column.val + 7 - windowX) (line.toNat - windowY)
        else row.get column, memory) := by
  cases shown with
  | true => simpa using run_windowOver numbering map line row memory
  | false =>
    refine congrArg (·, memory) (Vector.ext fun column bound => ?_)
    rw [Vector.getElem_ofFn]
    exact (if_neg fun both => Bool.false_ne_true both.1).symm

/-- What a line shows is the reference, column by column, and drawing it leaves the memory alone. -/
theorem run_render (line : UInt8) (memory : μ) :
    (render line).run memory =
      (Vector.ofFn fun column => referencePixel memory column.val line.toNat, memory) := by
  unfold render
  simp only [Bus.readControl, Transaction.run_bind, Transaction.run_map, Transaction.run_read,
    DisplayControl.backgroundEnabled_retain, DisplayControl.backgroundMapHigh_retain,
    DisplayControl.windowEnabled_retain, DisplayControl.windowMapHigh_retain, numbering_ofControl,
    HardwareRegister.displayControl]
  cases background : (load memory 0xFF40).toNat.testBit 0 with
  | true =>
    simp only [if_true, Transaction.run_bind, run_background, run_window]
    refine congrArg (·, memory) (Vector.ext fun column bound => ?_)
    simp only [Vector.getElem_ofFn, get_mk, referencePixel, seenAt, background, if_true]
    rfl
  | false =>
    simp only [Bool.false_eq_true, if_false, Transaction.run_bind, Transaction.run_pure, run_window]
    refine congrArg (·, memory) (Vector.ext fun column bound => ?_)
    simp only [Vector.getElem_ofFn, get_mk, referencePixel, seenAt, background, if_false,
      Bool.false_eq_true, Row.blank, Vector.getElem_replicate]
    rfl

theorem referencePixel_le (memory : μ) (x y : Nat) : referencePixel memory x y ≤ 3 := by
  unfold referencePixel seenAt
  dsimp only
  split
  · exact planePixel_le _ _ _ _ _
  · split
    · exact planePixel_le _ _ _ _ _
    · decide

end Scanline

/-! ## Drawing into a frame -/

variable {μ : Type} [Memory μ]

theorem Raster.raster_finishLine (raster : Raster) (line : Fin screenHeight) (memory : μ) :
    ((raster.finishLine line).run memory).1 =
      { raster with
        beam := .afterVisible line
        back := raster.back.set line.val ((Scanline.render (.ofNat line.val)).run memory).1
          line.isLt } := by
  simp only [finishLine, Transaction.run_bind]
  split <;> rfl

/-- On every line and in every column the colour that is drawn is the reference's, one of four,
whether that is found in whole tiles or bit by bit; and a frame has that line afterwards, whatever it
had there before. -/
theorem Scanline.render_pixel (memory : μ) (line : Fin screenHeight) (column : Fin screenWidth)
    (raster : Raster) :
    let drawn := ((render (.ofNat line.val)).run memory).1
    drawn.get column = referencePixel memory column.val line.val ∧
    (drawn.get column).toNat = referenceColour memory column.val line.val ∧
    drawn.get column ≤ 3 ∧
    ((raster.finishLine line).run memory).1.back.get line = drawn := by
  have small : (UInt8.ofNat line.val).toNat = line.val :=
    UInt8.toNat_ofNat_of_lt' (Nat.lt_trans line.isLt (by decide))
  have pixel : ((render (.ofNat line.val)).run memory).1.get column =
      referencePixel memory column.val line.val := by
    rw [run_render, small]
    exact Vector.getElem_ofFn column.isLt
  refine ⟨pixel, ?_, ?_, ?_⟩
  · rw [pixel]
    exact toNat_referencePixel memory column line
  · rw [pixel]
    exact referencePixel_le memory column.val line.val
  · rw [Raster.raster_finishLine]
    exact Vector.getElem_set_self line.isLt

/-- Background and window from the second map, whose first cell holds the number of a tile with a
pixel of colour 3 at the left of its first row: on the first line that is column 0 of the background
and column 80, where the window begins. -/
theorem Scanline.render_pixel_second_maps :
    let tile := store (store FlatMemory.blank 0x8010 0x80) 0x8011 0x80
    let memory := store (store (store tile 0x9C00 0x01) 0xFF40 0xF9) 0xFF4B 87
    let drawn := ((render 0).run memory).1
    drawn.get 0 = 3 ∧ drawn.get 1 = 0 ∧ drawn.get 80 = 3 ∧ drawn.get 81 = 0 := by
  intro tile memory drawn
  have colour (column : Fin screenWidth) :
      (drawn.get column).toNat = referenceColour memory column.val 0 :=
    (render_pixel memory 0 column .initial).2.1
  have control : Nat.testBit 0xF9 3 = true ∧ Nat.testBit 0xF9 4 = true ∧
      Nat.testBit 0xF9 5 = true ∧ Nat.testBit 0xF9 6 = true := by decide
  have row : Nat.testBit 0x80 7 = true ∧ Nat.testBit 0x80 6 = false := by decide
  have background : referenceColour memory 0 0 = 3 ∧ referenceColour memory 1 0 = 0 := by
    simp [referenceColour, seenAt, planeColour, tilePlace, memory, tile, FlatMemory.load_store,
      control, row]
  have window : referenceColour memory 80 0 = 3 ∧ referenceColour memory 81 0 = 0 := by
    simp [referenceColour, seenAt, planeColour, tilePlace, memory, tile, FlatMemory.load_store,
      control, row]
  exact ⟨UInt8.toNat_inj.1 ((colour 0).trans background.1),
    UInt8.toNat_inj.1 ((colour 1).trans background.2),
    UInt8.toNat_inj.1 ((colour 80).trans window.1), UInt8.toNat_inj.1 ((colour 81).trans window.2)⟩

end DotMatrix
