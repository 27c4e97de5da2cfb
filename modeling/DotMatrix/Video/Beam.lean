import DotMatrix.Video.Scanline

/-!
# The beam

Where the display stands in a frame. Each of the 144 lines on the screen passes through three stages;
then ten lines of vertical blank follow, which have one stage. The type holds these positions and no
others. A stage takes a fixed number of dots, a line 456 and a frame 70224.
-/

namespace DotMatrix

/-- What the display is doing, numbered as the display status shows it. -/
inductive Mode where
  /-- Between two lines. -/
  | horizontalBlank
  /-- Between two frames. -/
  | verticalBlank
  | search
  | transfer
deriving DecidableEq, Repr

namespace Mode

/-- The bits of a mode in the display status. -/
def bits : Mode → UInt8
  | .horizontalBlank => 0
  | .verticalBlank => 1
  | .search => 2
  | .transfer => 3

/-- The dots that a mode lasts; the vertical blank has it line by line. -/
def dots : Mode → Nat
  | .horizontalBlank => 204
  | .verticalBlank => 456
  | .search => 80
  | .transfer => 172

/-- The name of a mode. -/
def name : Mode → String
  | .horizontalBlank => "HBlank"
  | .verticalBlank => "VBlank"
  | .search => "AccessOam"
  | .transfer => "AccessVram"

theorem dots_pos (mode : Mode) : 0 < mode.dots := by
  cases mode <;> decide

end Mode

abbrev blankLines : Nat := 10

abbrev frameLines : Nat := screenHeight + blankLines

abbrev lineDots : Nat := 456

abbrev frameDots : Nat := lineDots * frameLines

/-- A part of the time that a line on the screen takes. -/
inductive Stage where
  | search
  | transfer
  | horizontalBlank
deriving DecidableEq, Repr

/-- A position in a frame. -/
inductive Beam where
  /-- On a line of the screen. -/
  | visible (line : Fin screenHeight) (stage : Stage)
  /-- On a line of the vertical blank. -/
  | blank (line : Fin blankLines)
deriving DecidableEq, Repr

namespace Beam

/-- The first position of a frame. -/
def start : Beam := .visible 0 .search

/-- The line of a position, counted from the top of the screen. -/
def line : Beam → Nat
  | .visible line _ => line
  | .blank line => screenHeight + line

def mode : Beam → Mode
  | .visible _ .search => .search
  | .visible _ .transfer => .transfer
  | .visible _ .horizontalBlank => .horizontalBlank
  | .blank _ => .verticalBlank

/-- The position after a line of the screen. -/
def afterVisible (line : Fin screenHeight) : Beam :=
  if h : line.val + 1 < screenHeight then .visible ⟨line.val + 1, h⟩ .search else .blank 0

/-- The position after a line of the vertical blank. -/
def afterBlank (line : Fin blankLines) : Beam :=
  if h : line.val + 1 < blankLines then .blank ⟨line.val + 1, h⟩ else start

def next : Beam → Beam
  | .visible line .search => .visible line .transfer
  | .visible line .transfer => .visible line .horizontalBlank
  | .visible line .horizontalBlank => afterVisible line
  | .blank line => afterBlank line

theorem line_lt (beam : Beam) : beam.line < frameLines := by
  cases beam with
  | visible line _ => exact Nat.lt_of_lt_of_le line.isLt (by decide)
  | blank line => exact Nat.add_lt_add_left line.isLt _

end Beam

end DotMatrix
