import Mathlib.Order.Bounds.Defs
import DotMatrix.Proofs.Video.Steady

/-!
# The next vertical blank

The interrupt of the vertical blank is requested at one place of a frame, when the beam leaves the
screen. So how many dots that is away follows from where the display stands, whatever is in memory;
the other requests that the display makes on its way have another bit.

Results:
1. `isLeast_dotsToBlank`: after how many dots the vertical blank begins.
2. `blankRequested_tick`: a tick requests its interrupt if it has that many dots.
-/

namespace DotMatrix

open Memory HardwareRegister

namespace Beam

/-- The last position on the screen: the vertical blank begins when it is over. -/
def lastVisible : Beam := .visible ⟨143, by decide⟩ .horizontalBlank

/-- The first position of the vertical blank. -/
def firstBlank : Beam := .blank ⟨0, by decide⟩

/-- No other position has the interrupt of the vertical blank requested at its end. -/
theorem requests_blank_iff (beam : Beam) (compare status : UInt8) :
    (beam.requests compare status).toNat.testBit 0 = true ↔ beam = lastVisible := by
  rcases beam with ⟨⟨line, bound⟩, stage⟩ | line
  · cases stage with
    | search => simp [requests, lastVisible]
    | transfer =>
      simp only [requests, lastVisible, visible.injEq, reduceCtorEq, and_false, iff_false]
      split <;> decide
    | horizontalBlank =>
      by_cases more : line + 1 < screenHeight
      · have other : line ≠ 143 := by
          simp only [screenHeight] at more
          omega
        have apart : (⟨line, bound⟩ : Fin screenHeight) ≠ ⟨143, by decide⟩ := fun same =>
          other (congrArg Fin.val same)
        simp [requests, lastVisible, more, apart]
      · obtain rfl : line = 143 := by
          simp only [screenHeight] at bound more
          omega
        refine iff_of_true ?_ rfl
        rw [requests, if_neg more]
        decide
  · simp [requests, lastVisible]

theorem endsAt_lastVisible (frame : Nat) : lastVisible.endsAt frame = frame * 70224 + 65664 := by
  have place : lastVisible.offset + lastVisible.mode.dots = 65664 := rfl
  rw [endsAt, beginsAt, frameDots_eq, Nat.add_assoc, place]

end Beam

namespace Ppu

/-- The dots until the vertical blank begins; a whole frame of them if it has just begun. -/
def dotsToBlank (ppu : Ppu) : Nat :=
  let place := ppu.beam.offset + ppu.dots
  let blank := Beam.firstBlank.offset
  if place < blank then blank - place else frameDots + blank - place

/-- Only one number of dots, up to a frame, takes the clock to the vertical blank. -/
theorem dotsToBlank_spec (ppu : Ppu) :
    0 < ppu.dotsToBlank ∧ ppu.dotsToBlank ≤ 70224 ∧
      (ppu.clock + ppu.dotsToBlank) % 70224 = 65664 := by
  have inFrame : ppu.beam.offset + ppu.dots < 70224 := ppu.offset_add_dots_lt
  have place : ppu.beam.offset + ppu.dots = ppu.clock % 70224 := ppu.place_eq
  have blank : Beam.firstBlank.offset = 65664 := rfl
  unfold dotsToBlank
  rw [frameDots_eq]
  dsimp only
  split <;> omega

/-- Before the first vertical blank the clock says how far away it is. -/
theorem dotsToBlank_of_clock_lt {ppu : Ppu} (early : ppu.clock < 65664) :
    ppu.dotsToBlank = 65664 - ppu.clock := by
  have := ppu.dotsToBlank_spec
  omega

theorem dotsToBlank_le_iff (ppu : Ppu) (dots : Nat) :
    ppu.dotsToBlank ≤ dots ↔ Beam.lastVisible.Passed ppu.clock (ppu.clock + dots) := by
  have := ppu.dotsToBlank_spec
  simp only [Beam.Passed, Beam.endsAt_lastVisible]
  constructor
  · intro enough
    exact ⟨(ppu.clock + ppu.dotsToBlank) / 70224, by omega, by omega⟩
  · rintro ⟨frame, after, by_now⟩
    omega

/-- The vertical blank begins: the beam is at its first line, and has spent none of its dots. -/
def BeginsBlank (ppu : Ppu) : Prop := ppu.beam = .firstBlank ∧ ppu.dots = 0

theorem beginsBlank_iff (ppu : Ppu) : ppu.BeginsBlank ↔ ppu.clock % 70224 = 65664 := by
  have place : ppu.beam.offset + ppu.dots = ppu.clock % 70224 := ppu.place_eq
  have blank : Beam.firstBlank.offset = 65664 := rfl
  constructor
  · rintro ⟨beam, dots⟩
    rw [← place, beam, dots, blank]
  · intro begins
    have inside := ppu.dots_lt
    rcases Nat.lt_or_ge ppu.beam.offset Beam.firstBlank.offset with before | after
    · -- An earlier position would have ended by now.
      have ended := Beam.offset_add_dots_le_of_lt before
      omega
    · exact ⟨Beam.eq_of_offset_eq (by omega), by omega⟩

variable {μ : Type} [Memory μ]

theorem isLeast_dotsToBlank (ppu : Ppu) (memory : μ) :
    IsLeast {dots | 0 < dots ∧ ((ppu.tick dots).run memory).1.2.BeginsBlank} ppu.dotsToBlank := by
  have begins_iff (dots : Nat) : ((ppu.tick dots).run memory).1.2.BeginsBlank ↔
      (ppu.clock + dots) % 70224 = 65664 := by
    rw [beginsBlank_iff, clock_tick]
  obtain ⟨pos, within, reaches⟩ := ppu.dotsToBlank_spec
  refine ⟨⟨pos, (begins_iff _).2 reaches⟩, ?_⟩
  rintro dots ⟨pos', begins⟩
  have begun := (begins_iff dots).1 begins
  omega

/-- The interrupt of the vertical blank is requested after a tick if it was before, or if the tick
has the dots until the blank begins. -/
theorem blankRequested_tick [PlainMemory μ] (ppu : Ppu) (dots : Nat) (memory : μ) :
    load ((ppu.tick dots).run memory).2 interruptRequests &&& 0x01 ≠ 0 ↔
      load memory interruptRequests &&& 0x01 ≠ 0 ∨ ppu.dotsToBlank ≤ dots := by
  have requested_iff (byte : UInt8) : byte &&& 0x01 ≠ 0 ↔ byte.toNat.testBit 0 = true := by
    revert byte
    exact BitField.forall_byte (by decide +kernel)
  have begun : ppu.toRaster.clock ≤ ppu.clock := Nat.le_add_right _ _
  have inside := Nat.add_lt_add_left ppu.dots_lt ppu.toRaster.clock
  have gathered := requests_elapse (ppu.dots + dots) memory begun inside 0
  simp only [Beam.requests_blank_iff, exists_eq_left] at gathered
  rw [requested_iff, requested_iff, run_tick_eq_elapse, outcome_memory, dotsToBlank_le_iff, clock,
    Nat.add_assoc]
  exact gathered

end Ppu

end DotMatrix
