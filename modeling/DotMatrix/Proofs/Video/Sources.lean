import DotMatrix.Proofs.Bus.Reading
import DotMatrix.Video.Scanline

/-!
# What drawing reads

A line is drawn from five registers and from video RAM. The addresses in video RAM come from the
scroll registers and from the bytes of the tile maps, and stay inside it for all of them.

Results:
1. `cell_of_map`, `tileByte_of_row`: cells and rows of tiles lie in their parts of video RAM.
2. `reads_render`: drawing a line only reads, and only from its sources.
-/

namespace DotMatrix

/-- A cell of one of the two tile maps. -/
def IsCell (address : UInt16) : Prop := 0x9800 ≤ address ∧ address ≤ 0x9FFF

/-- A byte of a tile. -/
def IsTileByte (address : UInt16) : Prop := 0x8000 ≤ address ∧ address ≤ 0x97FF

/-- What a line is drawn from. -/
inductive IsSource : UInt16 → Prop where
  /-- A register that says what is shown, and where. -/
  | register {address : UInt16} :
      address ∈ [HardwareRegister.displayControl, HardwareRegister.scrollX,
        HardwareRegister.scrollY, HardwareRegister.windowX, HardwareRegister.windowY] →
      IsSource address
  /-- A cell of a map. -/
  | cell {address : UInt16} : IsCell address → IsSource address
  /-- A byte of a tile. -/
  | tileByte {address : UInt16} : IsTileByte address → IsSource address

/-! ## Addresses in video RAM -/

theorem TileMap.toNat_base (map : TileMap) : map.base.toNat = 0x9800 ∨ map.base.toNat = 0x9C00 := by
  cases map with
  | low => exact .inl rfl
  | high => exact .inr rfl

theorem toNat_cellAddress (map : TileMap) (column row : UInt8) :
    (map.cellAddress column row).toNat =
      map.base.toNat + row.toNat % 32 * 32 + column.toNat % 32 := by
  have base := map.toNat_base
  simp only [TileMap.cellAddress, TileMap.side, UInt16.toNat_add, UInt16.toNat_mul,
    UInt16.toNat_mod, UInt8.toNat_toUInt16, UInt16.reduceToNat]
  omega

theorem cell_of_map (map : TileMap) (column row : UInt8) : IsCell (map.cellAddress column row) := by
  have base := map.toNat_base
  simp only [IsCell, UInt16.le_iff_toNat_le, toNat_cellAddress, UInt16.reduceToNat]
  omega

theorem toNat_tileAddress (numbering : TileNumbering) (number : UInt8) :
    (numbering.tileAddress number).toNat =
      match numbering with
      | .unsigned => 0x8000 + number.toNat * 16
      | .signed => if number.toNat < 128 then 0x9000 + number.toNat * 16
          else 0x8000 + number.toNat * 16 := by
  have := number.toNat_lt
  cases numbering with
  | unsigned =>
    simp [TileNumbering.tileAddress, TileNumbering.tileBytes]
    omega
  | signed =>
    simp only [TileNumbering.tileAddress, TileNumbering.tileBytes, UInt16.toNat_add,
      UInt16.toNat_mul, Word.toNat_signExtend, UInt16.reduceToNat]
    split <;> omega

theorem tileAddress_bounds (numbering : TileNumbering) (number : UInt8) :
    0x8000 ≤ (numbering.tileAddress number).toNat ∧
      (numbering.tileAddress number).toNat ≤ 0x97F0 := by
  have := number.toNat_lt
  rw [toNat_tileAddress]
  cases numbering with
  | unsigned => dsimp only; omega
  | signed => dsimp only; split <;> omega

theorem toNat_and_seven (byte : UInt8) : (byte &&& 0x07).toNat = byte.toNat % 8 := by
  rw [UInt8.toNat_and]
  exact Nat.and_two_pow_sub_one_eq_mod byte.toNat 3

theorem toNat_rowAddress (numbering : TileNumbering) (number row : UInt8) :
    (numbering.rowAddress number row).toNat =
      (numbering.tileAddress number).toNat + 2 * (row.toNat % 8) := by
  have first := tileAddress_bounds numbering number
  simp only [TileNumbering.rowAddress, UInt16.toNat_add, UInt16.toNat_mul, UInt8.toNat_toUInt16,
    UInt16.reduceToNat, toNat_and_seven]
  omega

theorem tileByte_of_row (numbering : TileNumbering) (number row : UInt8) :
    IsTileByte (numbering.rowAddress number row) ∧
      IsTileByte (numbering.rowAddress number row + 1) := by
  have first := tileAddress_bounds numbering number
  simp only [IsTileByte, UInt16.le_iff_toNat_le, UInt16.toNat_add, toNat_rowAddress,
    UInt16.reduceToNat]
  omega

/-! ## Drawing -/

namespace Scanline

open Transaction

theorem reads_readLine (numbering : TileNumbering) (map : TileMap) (y : UInt8) :
    (readLine numbering map y).Reads IsSource := by
  refine Reads.ofFnM fun column => ?_
  refine (Reads.read (.cell (cell_of_map _ _ _))).bind fun number => ?_
  have inTile := tileByte_of_row numbering number (y % 8)
  refine (Reads.read (.tileByte inTile.1)).bind fun low => ?_
  exact (Reads.read (.tileByte inTile.2)).bind fun high => .pure _

theorem reads_background (numbering : TileNumbering) (map : TileMap) (line : UInt8) :
    (background numbering map line).Reads IsSource := by
  refine (Reads.read (.register (by simp))).bind fun scrollX => ?_
  refine (Reads.read (.register (by simp))).bind fun scrollY => ?_
  exact (reads_readLine _ _ _).bind fun plane => .pure _

theorem reads_windowOver (numbering : TileNumbering) (map : TileMap) (line : UInt8) (row : Row) :
    (windowOver numbering map line row).Reads IsSource := by
  refine (Reads.read (.register (by simp))).bind fun windowY => ?_
  refine Reads.ite (.pure _) ?_
  refine (Reads.read (.register (by simp))).bind fun windowX => ?_
  exact (reads_readLine _ _ _).bind fun plane => .pure _

/-- A line is drawn from its sources alone, and nothing is written. -/
theorem reads_render (line : UInt8) : (render line).Reads IsSource := by
  have window (control : DisplayControl) (row : Row) :
      (if control.windowEnabled then
        windowOver (.ofControl control) (.select control.windowMapHigh) line row
      else pure row : Transaction Row).Reads IsSource :=
    Reads.ite (reads_windowOver _ _ _ _) (.pure _)
  refine (Reads.map _ (Reads.read (.register (by simp)))).bind fun control => ?_
  exact Reads.ite ((reads_background _ _ _).bind fun row => window control row)
    ((Reads.pure _).bind fun row => window control row)

end Scanline

end DotMatrix
