import DotMatrix.Video.Raster

/-!
# The display

`Ppu.tick` lets dots pass. The display stands at a position of its frame and has spent some of that
position's dots, always fewer than the position lasts. Whole frames beyond two leave nothing behind
but their number, so they are counted and not drawn.
-/

namespace DotMatrix

/-- The display's state. -/
structure Ppu extends Raster where
  /-- The dots spent at this position. -/
  dots : Nat
  /-- The position is not over. -/
  dots_lt : dots < beam.mode.dots

namespace Ppu

/-- The display at the start of its first frame. -/
def initial : Ppu where
  toRaster := .initial
  dots := 0
  dots_lt := by decide

end Ppu

/-- Passes all positions for which the dots suffice and keeps the rest of the dots. -/
def Raster.elapse (raster : Raster) (dots : Nat) : Transaction Ppu :=
  if enough : raster.beam.mode.dots ≤ dots then do
    let raster' ← raster.advance
    raster'.elapse (dots - raster.beam.mode.dots)
  else
    return { raster with dots, dots_lt := Nat.lt_of_not_le enough }
termination_by dots
decreasing_by
  have := raster.beam.mode.dots_pos
  omega

namespace Ppu

/-- Lets dots pass and says whether a frame was completed. That the positions on the way say the same,
each for itself, is `BoundedDisplay.outcome_tick`. -/
def tick (ppu : Ppu) (dots : Nat) : Transaction (Bool × Ppu) := do
  let skipped := dots / frameDots - 2
  let frames := ppu.frames
  let raster := { ppu.toRaster with frames := frames + skipped }
  let after ← raster.elapse (ppu.dots + (dots - skipped * frameDots))
  return (frames < after.frames, after)

end Ppu

end DotMatrix
