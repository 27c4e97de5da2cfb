import DotMatrix.Bus.Memory
import DotMatrix.Video.Beam

/-!
# Drawing frames

What happens when the beam passes from one position to the next. A line is drawn when its horizontal
blank ends, from what the memory then holds, into a frame that nobody sees before the vertical blank
is over; then it is presented. The mode, the line and two kinds of interrupt are shown in the hardware
registers as they change.
-/

namespace DotMatrix

/-- The beam with the frames it draws. -/
structure Raster where
  /-- The position in the frame. -/
  beam : Beam
  /-- The frame being drawn. -/
  back : Frame
  /-- The last completed frame. -/
  front : Frame
  /-- How many frames were completed. -/
  frames : Nat

namespace Raster

/-- The start of the first frame. -/
def initial : Raster where
  beam := .start
  back := .blank
  front := .blank
  frames := 0

/-! ## Hardware registers -/

/-- Requests the display interrupt when a transfer ends, where the display status asks for it, and
shows in the coincidence bit whether the line is the compared one. -/
def endTransfer (line : UInt8) : Transaction Unit := do
  if ← Bus.hasStatus DisplayStatus.horizontalBlankInterrupt then
    Bus.requestInterrupt Interrupts.display
  let compared ← Bus.read HardwareRegister.lineCompare
  if compared = line then
    if ← Bus.hasStatus DisplayStatus.lineInterrupt then
      Bus.requestInterrupt Interrupts.display
  Bus.setStatus DisplayStatus.coincidence (compared = line)

/-- Shows the number of a line that begins. -/
def showLine (line : Nat) : Transaction Unit := Bus.write HardwareRegister.line (.ofNat line)

/-- Enters the vertical blank. -/
def beginBlank (frames : Nat) : Transaction Unit := do
  Bus.setMode Mode.verticalBlank.bits
  Bus.requestInterrupt Interrupts.verticalBlank
  Bus.report (.vblankStart frames)

/-! ## Passing to the next position -/

/-- Presents the frame that was drawn; the old one is drawn over next. -/
def present (raster : Raster) : Raster :=
  { raster with front := raster.back, back := raster.front, frames := raster.frames + 1 }

/-- Draws the line that the beam has passed and begins the next one. -/
def finishLine (raster : Raster) (line : Fin screenHeight) : Transaction Raster := do
  let row ← Scanline.render (.ofNat line.val)
  showLine (line.val + 1)
  if line.val + 1 < screenHeight then
    Bus.setMode Mode.search.bits
  else
    beginBlank raster.frames
  return { raster with beam := .afterVisible line, back := raster.back.set line row }

/-- Begins the next line of the vertical blank or, after the last one, the next frame. The last line
is followed by a line number that no line has, and then by zero. -/
def finishBlankLine (raster : Raster) (line : Fin blankLines) : Transaction Raster := do
  showLine (screenHeight + line.val + 1)
  if line.val + 1 < blankLines then
    return { raster with beam := .afterBlank line }
  else
    let raster := raster.present
    Bus.report (.frameComplete raster.frames)
    showLine 0
    Bus.setMode Mode.search.bits
    return { raster with beam := .start }

/-- Passes to the next position, with all that happens there. -/
def advance (raster : Raster) : Transaction Raster :=
  match raster.beam with
  | .visible line .search => do
      Bus.setMode Mode.transfer.bits
      return { raster with beam := .visible line .transfer }
  | .visible line .transfer => do
      Bus.setMode Mode.horizontalBlank.bits
      endTransfer (.ofNat line.val)
      return { raster with beam := .visible line .horizontalBlank }
  | .visible line .horizontalBlank => raster.finishLine line
  | .blank line => raster.finishBlankLine line

/-- The beam goes on to the next position, whatever the memory holds. -/
theorem beam_advance {μ : Type} [Memory μ] (raster : Raster) (memory : μ) :
    (raster.advance.run memory).1.beam = raster.beam.next := by
  obtain ⟨beam, back, front, frames⟩ := raster
  cases beam with
  | visible line stage =>
    cases stage with
    | search => simp [advance, Beam.next]
    | transfer => simp [advance, Beam.next]
    | horizontalBlank =>
      simp only [advance, finishLine, Beam.next, Transaction.run_bind]
      split <;> simp
  | blank line =>
    by_cases more : line.val + 1 < blankLines
    · simp [advance, finishBlankLine, Beam.next, more]
    · simp [advance, finishBlankLine, Beam.next, Beam.afterBlank, more]

end Raster

end DotMatrix
