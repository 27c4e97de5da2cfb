import DotMatrix.Bus.Memory
import DotMatrix.Video.Tile

/-!
# Scanlines

What one line of the screen shows. The background and the window are planes of 256 by 256 pixels,
each covered by the tiles of a map. The background is scrolled and wraps around; the window lies over
it, from its own first line and column on.
-/

namespace DotMatrix

/-- The pixels in a line. -/
abbrev screenWidth : Nat := 160

/-- The lines of the screen. -/
abbrev screenHeight : Nat := 144

/-- The colours of a line, from left to right. -/
abbrev Row := Vector UInt8 screenWidth

/-- The lines of the screen, from top to bottom. -/
abbrev Frame := Vector Row screenHeight

namespace Row

/-- A line of colour zero. -/
def blank : Row := Vector.replicate _ 0

end Row

namespace Frame

/-- A screen of colour zero. -/
def blank : Frame := Vector.replicate _ Row.blank

end Frame

namespace Scanline

/-- The two bytes of a tile's row. -/
structure TileRow where
  /-- The low bits of its colours. -/
  low : UInt8
  /-- The high bits of its colours. -/
  high : UInt8

/-- A line of a plane: the rows that it crosses of the 32 tiles there. -/
abbrev PlaneLine := Vector TileRow 32

/-- The colour at a column of a line. -/
def PlaneLine.pixel (plane : PlaneLine) (x : UInt8) : UInt8 :=
  have bound : x.toNat / 8 < 32 := Nat.div_lt_of_lt_mul x.toNat_lt
  let row := plane[x.toNat / 8]
  pixelColour row.low row.high (x % 8)

/-- Reads a row of the tile in a cell. -/
def readTileRow (numbering : TileNumbering) (map : TileMap) (column y : UInt8) :
    Transaction TileRow := do
  let number ← map.readNumber column (y / 8)
  let address := numbering.rowAddress number (y % 8)
  let low ← Bus.read address
  let high ← Bus.read (address + 1)
  return ⟨low, high⟩

/-- Reads a line of the plane of a map. -/
def readLine (numbering : TileNumbering) (map : TileMap) (y : UInt8) : Transaction PlaneLine :=
  Vector.ofFnM fun column => readTileRow numbering map (.ofNat column.val) y

/-- The background under a line. -/
def background (numbering : TileNumbering) (map : TileMap) (line : UInt8) : Transaction Row := do
  let scrollX ← Bus.read HardwareRegister.scrollX
  let scrollY ← Bus.read HardwareRegister.scrollY
  let plane ← readLine numbering map (line + scrollY)
  return Vector.ofFn fun column => plane.pixel (.ofNat column.val + scrollX)

/-- A line with the window over it. The window's register holds its first column plus seven. -/
def windowOver (numbering : TileNumbering) (map : TileMap) (line : UInt8) (row : Row) :
    Transaction Row := do
  let windowY ← Bus.read HardwareRegister.windowY
  if line < windowY then
    return row
  else
    let windowX ← Bus.read HardwareRegister.windowX
    let plane ← readLine numbering map (line - windowY)
    return Vector.ofFn fun column =>
      if windowX.toNat ≤ column.val + 7 then plane.pixel (.ofNat (column.val + 7) - windowX)
      else row[column]

/-- What a line shows. -/
def render (line : UInt8) : Transaction Row := do
  let control ← Bus.readControl
  let numbering := TileNumbering.ofControl control
  let row ←
    if control.backgroundEnabled then
      background numbering (.select control.backgroundMapHigh) line
    else
      pure Row.blank
  if control.windowEnabled then
    windowOver numbering (.select control.windowMapHigh) line row
  else
    return row

/-! ## What is read -/

open Memory

variable {μ : Type} [Memory μ]

/-- The row of a tile is found in memory by its number in the map; nothing is written. -/
theorem run_readTileRow (numbering : TileNumbering) (map : TileMap) (column y : UInt8)
    (memory : μ) :
    let address := numbering.rowAddress (load memory (map.cellAddress column (y / 8))) (y % 8)
    (readTileRow numbering map column y).run memory =
      (⟨load memory address, load memory (address + 1)⟩, memory) := rfl

/-- A line of a plane has the row of each tile that it crosses; nothing is written. -/
theorem run_readLine (numbering : TileNumbering) (map : TileMap) (y : UInt8) (memory : μ) :
    (readLine numbering map y).run memory =
      (Vector.ofFn fun column : Fin 32 =>
        ((readTileRow numbering map (.ofNat column.val) y).run memory).1, memory) :=
  Transaction.run_ofFnM _ memory fun _ => rfl

end Scanline

end DotMatrix
