import DotMatrix.Bus.HardwareRegister

/-!
# Tiles

A tile is a square of 8 by 8 colours, two bits each, kept as sixteen bytes: a row takes two bytes,
one with the low bits of its colours and one with the high bits, the leftmost pixel in the top bit.
Tile numbers stand in two maps of 32 by 32 cells, and are read in one of two ways.
-/

namespace DotMatrix

/-- How a tile number becomes the address of a tile. -/
inductive TileNumbering where
  /-- Numbers 0 to 255, from $8000 on. -/
  | unsigned
  /-- Numbers -128 to 127, around $9000. -/
  | signed
deriving DecidableEq, Repr

namespace TileNumbering

/-- The bytes of a tile. -/
def tileBytes : UInt16 := 16

/-- The numbering that the display control chooses. -/
def ofControl (control : DisplayControl) : TileNumbering :=
  if control.unsignedTiles then .unsigned else .signed

/-- The address of a tile. -/
def tileAddress (numbering : TileNumbering) (number : UInt8) : UInt16 :=
  match numbering with
  | .unsigned => 0x8000 + number.toUInt16 * tileBytes
  | .signed => 0x9000 + Word.signExtend number * tileBytes

/-- The address of the two bytes of a tile's row. -/
def rowAddress (numbering : TileNumbering) (number row : UInt8) : UInt16 :=
  numbering.tileAddress number + (row &&& 0x07).toUInt16 * 2

end TileNumbering

/-- One of the two maps of tile numbers. -/
inductive TileMap where
  /-- The map at $9800. -/
  | low
  /-- The map at $9C00. -/
  | high
deriving DecidableEq, Repr

namespace TileMap

/-- The cells in a row or a column of a map. -/
def side : UInt16 := 32

/-- The map that a bit of the display control chooses. -/
def select (isHigh : Bool) : TileMap := if isHigh then .high else .low

/-- The address of a map's first cell. -/
def base : TileMap → UInt16
  | .low => 0x9800
  | .high => 0x9C00

/-- The address of a cell; columns and rows wrap around. -/
def cellAddress (map : TileMap) (column row : UInt8) : UInt16 :=
  map.base + row.toUInt16 % side * side + column.toUInt16 % side

/-- Reads the tile number in a cell. -/
def readNumber (map : TileMap) (column row : UInt8) : Transaction UInt8 :=
  Bus.read (map.cellAddress column row)

end TileMap

/-- The colour of the pixel in column `x` of a row, from the bytes of its low and its high bits. -/
def pixelColour (low high x : UInt8) : UInt8 :=
  let place := 7 - (x &&& 0x07)
  (((high >>> place) &&& 0x01) <<< 1) ||| ((low >>> place) &&& 0x01)

/-- A tile as colours, row by row. -/
structure Tile where
  /-- The rows from top to bottom, each from left to right. -/
  rows : Vector (Vector UInt8 8) 8
deriving DecidableEq

namespace Tile

/-- The tile of colour zero. -/
def blank : Tile := ⟨Vector.replicate 8 (Vector.replicate 8 0)⟩

/-- The tile with the given bytes. -/
def decode (bytes : Vector UInt8 16) : Tile :=
  ⟨Vector.ofFn fun row => Vector.ofFn fun column =>
    pixelColour bytes[2 * row.val] bytes[2 * row.val + 1] (.ofNat column.val)⟩

/-- Reads a tile. -/
def read (numbering : TileNumbering) (number : UInt8) : Transaction Tile :=
  let base := numbering.tileAddress number
  decode <$> Vector.ofFnM fun offset => Bus.read (base + .ofNat offset.val)

theorem mod_side_lt (place : UInt8) : place.toNat % 8 < 8 := Nat.mod_lt _ (Nat.succ_pos 7)

/-- The colour of a pixel; columns and rows wrap around. -/
def pixel (tile : Tile) (x y : UInt8) : UInt8 :=
  have row := mod_side_lt y
  have column := mod_side_lt x
  tile.rows[y.toNat % 8][x.toNat % 8]

end Tile

end DotMatrix
