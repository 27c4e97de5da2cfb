import DotMatrix.Proofs.Memory.Writes
import DotMatrix.Proofs.Video.Picture
import DotMatrix.Proofs.Video.Registers

/-!
# Drawing over a line

A line can be drawn in place, over a row that shows something else: column by column, each pixel
fetched on its own from a cell of a map and two bytes of a tile. Nothing of the old row is left in the
end, and the new one is the line that is drawn from rows of tiles. Either way the accesses are
registers and fetches in a fixed form, so a line follows from its registers and from video RAM.

Results:
1. `IsDrawing.sources`: the accesses of a drawing are reads in known parts of the memory.
2. `Scanline.draws_render`, `Scanline.draws_draw`: both ways of drawing a line are such drawings.
3. `Scanline.run_draw`: they give the same line, whatever was there before.
4. `Scanline.draw_from_sources`: the three together, and what they mean for two memories.
-/

namespace DotMatrix

open Memory

/-! ## Accesses of a drawing -/

section

variable {μ α β : Type} [Memory μ]

/-- The registers that a line is drawn from. -/
def IsLineRegister (address : UInt16) : Prop :=
  address ∈ [HardwareRegister.displayControl, HardwareRegister.scrollX, HardwareRegister.scrollY,
    HardwareRegister.windowX, HardwareRegister.windowY]

/-- A source of a line is one of five registers or lies in video RAM. -/
theorem IsSource.bounds {address : UInt16} (source : IsSource address) :
    IsLineRegister address ∨ 0x8000 ≤ address ∧ address ≤ 0x9FFF := by
  cases source with
  | register known => exact .inl known
  | cell inside => exact .inr ⟨UInt16.le_trans (by decide) inside.1, inside.2⟩
  | tileByte inside => exact .inr ⟨inside.1, UInt16.le_trans inside.2 (by decide)⟩

/-- Reads of registers and fetches, one after the other. A fetch reads the number in a cell of a map
and then the two bytes of a row of the tile with that number. -/
inductive IsDrawing (memory : μ) : List Access → Prop where
  | done : IsDrawing memory []
  | register {address : UInt16} {later : List Access} :
      IsLineRegister address → IsDrawing memory later → IsDrawing memory (.read address :: later)
  | fetch {cell address : UInt16} {later : List Access} (numbering : TileNumbering) (row : UInt8) :
      IsCell cell → address = numbering.rowAddress (load memory cell) row →
      IsTileByte address → IsTileByte (address + 1) → IsDrawing memory later →
      IsDrawing memory (.read cell :: .read address :: .read (address + 1) :: later)

namespace IsDrawing

variable {memory : μ} {accesses : List Access}

theorem append {later : List Access} (first : IsDrawing memory accesses)
    (second : IsDrawing memory later) : IsDrawing memory (accesses ++ later) := by
  induction first with
  | done => exact second
  | register known _ ih => exact .register known ih
  | fetch numbering row cell place low high _ ih => exact .fetch numbering row cell place low high ih

/-- Nothing is written, and all that is read is a source of a line. -/
theorem sources (drawing : IsDrawing memory accesses) :
    ∀ access ∈ accesses, ∃ address, access = .read address ∧ IsSource address := by
  induction drawing with
  | done => exact fun access member => absurd member List.not_mem_nil
  | register known _ ih =>
    intro access member
    rcases List.mem_cons.1 member with rfl | later
    · exact ⟨_, rfl, .register known⟩
    · exact ih access later
  | fetch numbering row cell _ low high _ ih =>
    intro access member
    simp only [List.mem_cons] at member
    rcases member with rfl | rfl | rfl | later
    · exact ⟨_, rfl, .cell cell⟩
    · exact ⟨_, rfl, .tileByte low⟩
    · exact ⟨_, rfl, .tileByte high⟩
    · exact ih access later

theorem foldl_apply (drawing : IsDrawing memory accesses) :
    accesses.foldl apply memory = memory := by
  induction drawing with
  | done => rfl
  | register _ _ ih => exact ih
  | fetch _ _ _ _ _ _ _ ih => exact ih

end IsDrawing

/-- On a memory, the accesses of a transaction are those of a drawing. -/
def Transaction.Draws (t : Transaction α) (memory : μ) : Prop :=
  IsDrawing memory (t.accesses memory)

namespace Transaction.Draws

variable {memory : μ} {t : Transaction α}

/-- A drawing leaves the memory alone. -/
theorem run_snd (draws : t.Draws memory) : (t.run memory).2 = memory := by
  rw [run_eq_store]
  exact IsDrawing.foldl_apply draws

theorem pure (result : α) : (Pure.pure result : Transaction α).Draws memory := .done

theorem bind {f : α → Transaction β} (first : t.Draws memory)
    (second : (f (t.run memory).1).Draws memory) : (t >>= f).Draws memory := by
  rw [Draws, accesses_bind, first.run_snd]
  exact first.append second

theorem map (f : α → β) (draws : t.Draws memory) : (f <$> t).Draws memory := by
  rw [Draws, accesses_map]
  exact draws

theorem register {address : UInt16} (known : IsLineRegister address) :
    (Bus.read address).Draws memory := IsDrawing.register known .done

theorem ite {condition : Prop} [Decidable condition] {u : Transaction α} (first : t.Draws memory)
    (second : u.Draws memory) : (if condition then t else u).Draws memory := by
  split
  · exact first
  · exact second

theorem ofFnM {count : Nat} {f : Fin count → Transaction α} (each : ∀ i, (f i).Draws memory) :
    (Vector.ofFnM f).Draws memory := by
  induction count with
  | zero =>
    rw [Vector.ofFnM_zero]
    exact .pure _
  | succ count ih =>
    rw [Vector.ofFnM_succ]
    exact (ih fun i => each i.castSucc).bind ((each _).bind (.pure _))

theorem foldlM {f : β → α → Transaction β} (each : ∀ state item, (f state item).Draws memory)
    (items : List α) (state : β) : (items.foldlM f state).Draws memory := by
  induction items generalizing state with
  | nil => exact .pure _
  | cons item later ih =>
    rw [List.foldlM_cons]
    exact (each state item).bind (ih _)

end Transaction.Draws

end

/-! ## In place -/

/-- Puts a new colour, which may depend on the old one, in a column of a row. -/
def Row.repaint (paint : Fin screenWidth → UInt8 → Transaction UInt8) (row : Row)
    (column : Fin screenWidth) : Transaction Row := do
  let colour ← paint column (row.get column)
  return row.set column.val colour column.isLt

/-- Goes over the columns of a row from left to right and puts a new colour in each. -/
def Row.redraw (paint : Fin screenWidth → UInt8 → Transaction UInt8) (row : Row) :
    Transaction Row :=
  (List.finRange screenWidth).foldlM (Row.repaint paint) row

namespace Scanline

/-- Fetches a pixel of the plane of a map. -/
def readPixel (numbering : TileNumbering) (map : TileMap) (x y : UInt8) : Transaction UInt8 := do
  let row ← readTileRow numbering map (x / 8) y
  return pixelColour row.low row.high (x % 8)

/-- Draws the background under a line over a row. -/
def drawBackground (numbering : TileNumbering) (map : TileMap) (line : UInt8) (row : Row) :
    Transaction Row := do
  let scrollX ← Bus.read HardwareRegister.scrollX
  let scrollY ← Bus.read HardwareRegister.scrollY
  row.redraw fun column _ => readPixel numbering map (.ofNat column.val + scrollX) (line + scrollY)

/-- Draws the window over a row. Columns to the left of it stay as they are. -/
def drawWindow (numbering : TileNumbering) (map : TileMap) (line : UInt8) (row : Row) :
    Transaction Row := do
  let windowY ← Bus.read HardwareRegister.windowY
  if line < windowY then
    return row
  else
    let windowX ← Bus.read HardwareRegister.windowX
    row.redraw fun column colour =>
      if windowX.toNat ≤ column.val + 7 then
        readPixel numbering map (.ofNat (column.val + 7) - windowX) (line - windowY)
      else
        return colour

/-- The layers of a line, as the display control asks for them. -/
def layered (background : TileNumbering → TileMap → Transaction Row)
    (window : TileNumbering → TileMap → Row → Transaction Row) : Transaction Row := do
  let control ← Bus.readControl
  let numbering := TileNumbering.ofControl control
  let row ←
    if control.backgroundEnabled then
      background numbering (.select control.backgroundMapHigh)
    else
      pure Row.blank
  if control.windowEnabled then
    window numbering (.select control.windowMapHigh) row
  else
    return row

/-- Draws a line over a row. -/
def draw (line : UInt8) (row : Row) : Transaction Row :=
  layered (drawBackground · · line row) (drawWindow · · line)

theorem render_eq_layered (line : UInt8) :
    render line = layered (background · · line) (windowOver · · line) := rfl

/-! ## What is read -/

open Transaction

variable {μ ν κ : Type} [Memory μ] [Memory ν] [Memory κ] (numbering : TileNumbering)
  (map : TileMap) (line x y : UInt8) (row : Row) (memory : μ)

theorem draws_readTileRow : (readTileRow numbering map x y).Draws memory := by
  have inTile := tileByte_of_row numbering (load memory (map.cellAddress x (y / 8))) (y % 8)
  exact .fetch numbering (y % 8) (cell_of_map map x (y / 8)) rfl inTile.1 inTile.2 .done

theorem draws_readLine : (readLine numbering map y).Draws memory :=
  .ofFnM fun _ => draws_readTileRow numbering map _ y memory

theorem draws_readPixel : (readPixel numbering map x y).Draws memory :=
  (draws_readTileRow numbering map _ y memory).bind (.pure _)

theorem draws_redraw {paint : Fin screenWidth → UInt8 → Transaction UInt8}
    (each : ∀ column colour, (paint column colour).Draws memory) :
    (row.redraw paint).Draws memory := by
  unfold Row.redraw
  refine Draws.foldlM (fun row column => ?_) _ row
  exact (each column (row.get column)).bind (.pure _)

theorem draws_layered {background : TileNumbering → TileMap → Transaction Row}
    {window : TileNumbering → TileMap → Row → Transaction Row}
    (below : ∀ numbering map, (background numbering map).Draws memory)
    (above : ∀ numbering map row, (window numbering map row).Draws memory) :
    (layered background window).Draws memory := by
  refine ((Draws.register (by simp [IsLineRegister])).map _).bind ?_
  have covered (control : DisplayControl) (row : Row) :
      (if control.windowEnabled then
        window (.ofControl control) (.select control.windowMapHigh) row
      else pure row : Transaction Row).Draws memory := .ite (above _ _ _) (.pure _)
  exact .ite ((below _ _).bind (covered _ _)) (covered _ _)

theorem draws_scrolled {paint : UInt8 → UInt8 → Transaction Row}
    (each : ∀ scrollX scrollY, (paint scrollX scrollY).Draws memory) :
    (do
      let scrollX ← Bus.read HardwareRegister.scrollX
      let scrollY ← Bus.read HardwareRegister.scrollY
      paint scrollX scrollY).Draws memory := by
  refine (Draws.register (by simp [IsLineRegister])).bind ?_
  exact (Draws.register (by simp [IsLineRegister])).bind (each _ _)

theorem draws_placed {paint : UInt8 → UInt8 → Transaction Row}
    (each : ∀ windowX windowY, (paint windowX windowY).Draws memory) :
    (do
      let windowY ← Bus.read HardwareRegister.windowY
      if line < windowY then
        return row
      else
        let windowX ← Bus.read HardwareRegister.windowX
        paint windowX windowY).Draws memory := by
  refine (Draws.register (by simp [IsLineRegister])).bind (.ite (.pure _) ?_)
  exact (Draws.register (by simp [IsLineRegister])).bind (each _ _)

theorem draws_render : (render line).Draws memory := by
  rw [render_eq_layered]
  refine draws_layered memory (fun numbering map => ?_) fun numbering map row => ?_
  · exact draws_scrolled memory fun _ _ => (draws_readLine numbering map _ memory).bind (.pure _)
  · exact draws_placed line row memory fun _ _ =>
      (draws_readLine numbering map _ memory).bind (.pure _)

theorem draws_draw : (draw line row).Draws memory := by
  refine draws_layered memory (fun numbering map => ?_) fun numbering map row => ?_
  · exact draws_scrolled memory fun _ _ => draws_redraw row memory fun _ _ =>
      draws_readPixel numbering map _ _ memory
  · exact draws_placed line row memory fun _ _ => draws_redraw row memory fun _ _ =>
      .ite (draws_readPixel numbering map _ _ memory) (.pure _)

/-! ## What is drawn -/

/-- A pixel that is fetched on its own is the one in a line of the plane. -/
theorem run_readPixel : (readPixel numbering map x y).run memory =
    (((readLine numbering map y).run memory).1.pixel x, memory) := by
  rw [run_readLine, PlaneLine.pixel, readPixel, run_bind, run_pure]
  simp only [Vector.getElem_ofFn, ofNat_toNat_div]
  rfl

/-- The columns that were gone over have their new colours and the others their old ones. -/
theorem get_repaint_columns {paint : Fin screenWidth → UInt8 → Transaction UInt8}
    (each : ∀ column colour, (paint column colour).Draws memory) {columns : List (Fin screenWidth)}
    (apart : columns.Nodup) (column : Fin screenWidth) :
    let drawn := ((columns.foldlM (Row.repaint paint) row).run memory).1
    (column ∈ columns → drawn.get column = ((paint column (row.get column)).run memory).1) ∧
      (column ∉ columns → drawn.get column = row.get column) := by
  induction columns generalizing row with
  | nil => exact ⟨fun member => absurd member List.not_mem_nil, fun _ => rfl⟩
  | cons first later ih =>
    obtain ⟨fresh, apart⟩ := List.nodup_cons.1 apart
    have kept (colour : UInt8) (other : column ≠ first) :
        (row.set first.val colour first.isLt).get column = row.get column :=
      Vector.getElem_set_ne _ _ fun equal => other (Fin.ext equal.symm)
    rw [List.foldlM_cons, run_bind, Row.repaint, run_bind, run_pure, (each _ _).run_snd]
    obtain ⟨painted, left⟩ := ih (row.set first.val
      ((paint first (row.get first)).run memory).1 first.isLt) apart
    constructor
    · intro member
      rcases List.mem_cons.1 member with rfl | member
      · -- The loop does not come back to this column, so what is put there now stays.
        exact (left fresh).trans (Vector.getElem_set_self column.isLt)
      · -- The colour that is painted over later is still the one from before the loop.
        have other : column ≠ first := fun equal => fresh (equal ▸ member)
        exact (painted member).trans (by rw [kept _ other])
    · intro outside
      obtain ⟨other, outside⟩ := List.ne_and_not_mem_of_not_mem_cons outside
      exact (left outside).trans (kept _ other)

theorem run_redraw {paint : Fin screenWidth → UInt8 → Transaction UInt8}
    (each : ∀ column colour, (paint column colour).Draws memory) :
    (row.redraw paint).run memory =
      (Vector.ofFn fun column => ((paint column (row.get column)).run memory).1, memory) := by
  refine Prod.ext (Vector.ext fun column bound => ?_) (draws_redraw row memory each).run_snd
  rw [Vector.getElem_ofFn]
  exact (get_repaint_columns row memory each (List.nodup_finRange _) ⟨column, bound⟩).1
    (List.mem_finRange _)

theorem run_drawBackground : (drawBackground numbering map line row).run memory =
    (background numbering map line).run memory := by
  simp only [drawBackground, background, run_bind, run_read, run_pure, memory_readLine]
  rw [run_redraw row memory fun _ _ => draws_readPixel numbering map _ _ memory]
  simp only [run_readPixel]

theorem run_drawWindow : (drawWindow numbering map line row).run memory =
    (windowOver numbering map line row).run memory := by
  rw [drawWindow, windowOver, run_bind, run_bind, run_read]
  by_cases above : line < load memory HardwareRegister.windowY
  · rw [if_pos above, if_pos above]
  · rw [if_neg above, if_neg above, run_bind, run_bind, run_read]
    dsimp only
    generalize load memory HardwareRegister.windowX = windowX
    rw [run_bind, run_pure, memory_readLine, run_redraw row memory fun column colour =>
      .ite (draws_readPixel numbering map _ _ memory) (.pure _)]
    refine congrArg (·, memory) (Vector.ext fun column bound => ?_)
    rw [Vector.getElem_ofFn, Vector.getElem_ofFn]
    by_cases reaches : windowX.toNat ≤ column + 7
    · simp only [reaches, if_true, run_readPixel]
    · simp only [reaches, if_false]
      rfl

/-- A line drawn in place is the line drawn from rows of tiles; nothing shows of the old row. -/
theorem run_draw : (draw line row).run memory = (render line).run memory := by
  have covered (control : DisplayControl) (row : Row) (memory : μ) :
      (if control.windowEnabled then
        drawWindow (.ofControl control) (.select control.windowMapHigh) line row
      else pure row : Transaction Row).run memory =
      (if control.windowEnabled then
        windowOver (.ofControl control) (.select control.windowMapHigh) line row
      else pure row : Transaction Row).run memory := by
    split
    · exact run_drawWindow _ _ line row memory
    · rfl
  rw [render_eq_layered, draw, layered, layered, run_bind, run_bind]
  dsimp only
  split
  · rw [run_bind, run_bind, run_drawBackground]
    exact covered _ _ _
  · exact covered _ _ _

/-! ## What a line depends on -/

variable [PlainMemory κ]

/-- What is written to the display's own registers does not touch the sources of a line. -/
theorem load_run_of_signals {α : Type} {t : Transaction α} {memory : κ}
    (signals : ∀ written ∈ t.writes memory, IsSignal written) {address : UInt16}
    (source : IsSource address) : load (t.run memory).2 address = load memory address := by
  refine PlainMemory.load_run_of_apart fun written listed same => ?_
  have signal := signals written listed
  have high : 0xFF00 ≤ written := by
    rcases signal with rfl | rfl | rfl <;> decide
  obtain rfl := PlainMemory.canonical_hardware written address high same
  exact source.not_signal signal

/-- Drawing a line reads registers, cells of the maps and bytes of tiles, in fixed groups, and writes
nothing. What it draws follows from the five registers and from video RAM, whatever the row held
before, and whatever else differs or has been written to the display's own registers. -/
theorem draw_from_sources {α : Type} (line : UInt8) (row before : Row) (memory : μ) (other : ν)
    (t : Transaction α) (plain : κ) :
    (draw line row).Draws memory ∧ (render line).Draws memory ∧
    (∀ access ∈ (draw line row).accesses memory ++ (render line).accesses memory,
      ∃ address, access = .read address ∧
        (IsLineRegister address ∨ 0x8000 ≤ address ∧ address ≤ 0x9FFF)) ∧
    (draw line row).run memory = (render line).run memory ∧
    ((render line).run memory).2 = memory ∧
    ((∀ address, IsLineRegister address ∨ 0x8000 ≤ address ∧ address ≤ 0x9FFF →
        load memory address = load other address) →
      ((draw line row).run memory).1 = ((draw line before).run other).1) ∧
    ((∀ written ∈ t.writes plain, IsSignal written) →
      ((draw line row).run (t.run plain).2).1 = ((draw line before).run plain).1) := by
  have inPlace := draws_draw line row memory
  have byTiles := draws_render line memory
  have reads := reads_render line
  refine ⟨inPlace, byTiles, ?_, run_draw line row memory, byTiles.run_snd, ?_, ?_⟩
  · intro access member
    rcases List.mem_append.1 member with made | made
    · obtain ⟨address, rfl, source⟩ := inPlace.sources access made
      exact ⟨address, rfl, source.bounds⟩
    · obtain ⟨address, rfl, source⟩ := byTiles.sources access made
      exact ⟨address, rfl, source.bounds⟩
  · intro agree
    rw [run_draw, run_draw, reads.run_eq memory other fun address source =>
      agree address source.bounds]
  · intro signals
    rw [run_draw, run_draw, reads.run_eq _ plain fun address source =>
      load_run_of_signals signals source]

/-- A line with a pixel of colour 3 on the left, from two memories that differ in work RAM, and with a
line number written between two drawings. -/
theorem draw_from_sources_other_ram :
    let tile := store (store FlatMemory.blank 0x8010 0x80) 0x8011 0x80
    let memory := store (store tile 0x9820 0x01) HardwareRegister.displayControl 0x91
    let other := store memory 0xC000 0x3C
    let t := Bus.write HardwareRegister.line 0x90
    (∀ address, IsLineRegister address ∨ 0x8000 ≤ address ∧ address ≤ 0x9FFF →
      load memory address = load other address) ∧
    (∀ written ∈ t.writes memory, IsSignal written) ∧
    ((draw 8 .blank).run memory).1.get 0 = 3 ∧
    ((draw 8 .blank).run memory).1 = ((draw 8 (.replicate _ 3)).run other).1 ∧
    ((draw 8 .blank).run (t.run memory).2).1 = ((draw 8 (.replicate _ 3)).run memory).1 := by
  intro tile memory other t
  have agree (address : UInt16)
      (known : IsLineRegister address ∨ 0x8000 ≤ address ∧ address ≤ 0x9FFF) :
      load memory address = load other address := by
    have elsewhere : address ≠ 0xC000 := by
      rintro rfl
      revert known
      unfold IsLineRegister
      decide
    have kept := FlatMemory.load_store memory 0xC000 address 0x3C
    rw [if_neg elsewhere] at kept
    exact kept.symm
  have signals : ∀ written ∈ t.writes memory, IsSignal written := by
    intro written listed
    exact .inl (List.mem_singleton.1 listed)
  have control : Nat.testBit 0x91 3 = false ∧ Nat.testBit 0x91 4 = true ∧
      Nat.testBit 0x91 5 = false := by decide
  have row : Nat.testBit 0x80 7 = true := by decide
  have left : referenceColour memory 0 8 = 3 := by
    simp [referenceColour, seenAt, planeColour, tilePlace, memory, tile, FlatMemory.load_store,
      HardwareRegister.displayControl, control, row]
  have colour : referencePixel memory 0 8 = 3 :=
    UInt8.toNat_inj.1 ((toNat_referencePixel memory 0 8).trans left)
  have drawn := draw_from_sources 8 .blank (.replicate _ 3) memory other t memory
  refine ⟨agree, signals, ?_, drawn.2.2.2.2.2.1 agree, drawn.2.2.2.2.2.2 signals⟩
  rw [drawn.2.2.2.1, run_render]
  exact (Vector.getElem_ofFn _).trans colour

end Scanline

end DotMatrix
