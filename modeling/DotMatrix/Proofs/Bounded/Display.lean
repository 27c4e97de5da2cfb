import DotMatrix.Proofs.Bounded.Line
import DotMatrix.Proofs.Video.Steady

/-!
# The display without faults

The display as its counters hold it: a mode, the number of a line in a byte, the dots spent there in
32 bits and the frames in 64. The line number alone does not say which modes are possible, so every
calculation with it could fail: the line drawn could lie behind the frame, its number could pass the
greatest byte, the dots could pass the greatest number when a huge tick comes. In the display's
states none of this happens.

Results:
1. `BoundedDisplay.outcome_advance`: passing to the next mode.
2. `BoundedDisplay.outcome_elapse`: passing all modes for which the dots suffice.
3. `BoundedDisplay.outcome_tick`: a tick of any number of dots that 32 bits hold.
-/

namespace DotMatrix

open Memory

/-- The dots that a mode lasts, in 32 bits. -/
def Mode.budget (mode : Mode) : UInt32 := .ofNat mode.dots

@[simp] theorem Mode.toNat_budget (mode : Mode) : mode.budget.toNat = mode.dots := by
  cases mode <;> rfl

theorem Mode.dots_le (mode : Mode) : mode.dots ≤ lineDots := by
  cases mode <;> decide

/-- The dots of a frame, in 32 bits. -/
def frameBudget : UInt32 := .ofNat frameDots

@[simp] theorem toNat_frameBudget : frameBudget.toNat = frameDots := rfl

/-- A tick completes no more than a few frames, of those that 64 bits can count. -/
theorem Ppu.frames_tick_le {μ : Type} [Memory μ] (ppu : Ppu) (dots : UInt32) (memory : μ) :
    ((ppu.tick dots.toNat).run memory).1.2.frames ≤ ppu.frames + 2 ^ 16 := by
  have start := ppu.frames_eq
  have finish := ((ppu.tick dots.toNat).run memory).1.2.frames_eq
  have := dots.toNat_lt
  rw [clock_tick] at finish
  simp only [frameDots_eq] at *
  omega

/-- The display as its counters hold it, without the dots spent in the mode. -/
structure BoundedDisplay where
  mode : Mode
  /-- The number of the line. -/
  scanline : UInt8
  /-- The frame being drawn. -/
  back : Frame
  /-- The last completed frame. -/
  front : Frame
  /-- How many frames were completed. -/
  frames : UInt64

namespace BoundedDisplay

/-- The counters at a position of a frame. -/
def ofRaster (raster : Raster) : BoundedDisplay where
  mode := raster.beam.mode
  scanline := .ofNat raster.beam.line
  back := raster.back
  front := raster.front
  frames := .ofNat raster.frames

theorem frames_ofRaster (raster : Raster) : (ofRaster raster).frames = .ofNat raster.frames := rfl

/-! ## Passing to the next mode -/

/-- Shows and enters a mode. -/
def enter (display : BoundedDisplay) (mode : Mode) : Transaction BoundedDisplay := do
  Bus.setMode mode.bits
  return { display with mode }

/-- Begins the next line. -/
def nextLine (display : BoundedDisplay) : CheckedTransaction BoundedDisplay := do
  let scanline ← Checked.add display.scanline 1
  Bus.write HardwareRegister.line scanline
  return { display with scanline }

/-- Presents the frame that was drawn. -/
def present (display : BoundedDisplay) : Checked BoundedDisplay := do
  let frames ← Checked.add display.frames 1
  return { display with back := display.front, front := display.back, frames }

/-- Passes to the next mode, with all that happens there, and says whether a frame is completed. -/
def advance (display : BoundedDisplay) : CheckedTransaction (Bool × BoundedDisplay) :=
  match display.mode with
  | .search => do
    let display ← display.enter .transfer
    return (false, display)
  | .transfer => do
    let display ← display.enter .horizontalBlank
    Raster.endTransfer display.scanline
    return (false, display)
  | .horizontalBlank => do
    let row ← Scanline.renderChecked display.scanline
    let back ← Checked.set display.back display.scanline.toNat row
    let display ← nextLine { display with back }
    if display.scanline.toNat = screenHeight then
      let display ← display.enter .verticalBlank
      Bus.requestInterrupt Interrupts.verticalBlank
      Bus.report (.vblankStart display.frames.toNat)
      return (false, display)
    else
      let display ← display.enter .search
      return (false, display)
  | .verticalBlank => do
    let display ← display.nextLine
    if display.scanline.toNat = frameLines then
      let display ← display.present
      Bus.report (.frameComplete display.frames.toNat)
      Bus.write HardwareRegister.line 0
      let display ← enter { display with scanline := 0 } .search
      return (true, display)
    else
      return (false, display)

open CheckedTransaction

variable {μ : Type} [Memory μ]

@[simp] theorem run_enter (display : BoundedDisplay) (mode : Mode) (memory : μ) :
    (display.enter mode).run memory =
      ({ display with mode }, ((Bus.setMode mode.bits).run memory).2) := by
  rw [enter, Transaction.run_bind, Transaction.run_pure]

/-- The number of the next line fits in a byte: there are 154 lines. -/
theorem outcome_nextLine (display : BoundedDisplay) (line : Nat)
    (here : display.scanline = .ofNat line) (inFrame : line < frameLines) (memory : μ) :
    display.nextLine.outcome memory =
      .ok ({ display with scanline := .ofNat (line + 1) },
        ((Raster.showLine (line + 1)).run memory).2) := by
  have sum : Checked.add display.scanline 1 = .ok (.ofNat (line + 1)) := Checked.add_eq_ok (by
    simp only [frameLines, screenHeight, blankLines] at inFrame
    simp only [here, FixedWidth.toInt_byte, UInt8.toNat_ofNat', UInt8.reduceToNat]
    omega)
  rw [nextLine, outcome_bind_check sum, outcome_bind_lift]
  rfl

/-- A line on the screen is drawn into the frame, and the next one begins. -/
theorem outcome_finishLine (raster : Raster) (line : Fin screenHeight) (memory : μ) :
    (ofRaster { raster with beam := .visible line .horizontalBlank }).advance.outcome memory =
      let after := (raster.finishLine line).run memory
      .ok ((false, ofRaster after.1), after.2) := by
  have bound : line.val < 144 := line.isLt
  have toNat_line : (UInt8.ofNat line.val).toNat = line.val :=
    UInt8.toNat_ofNat_of_lt' (Nat.lt_trans bound (by decide))
  have toNat_next : (UInt8.ofNat (line.val + 1)).toNat = line.val + 1 :=
    UInt8.toNat_ofNat_of_lt' (Nat.lt_of_le_of_lt bound (by decide))
  have set (row : Row) : Checked.set raster.back (UInt8.ofNat line.val).toNat row =
      .ok (raster.back.set line row) := by
    rw [toNat_line]
    exact Checked.set_eq_ok _ line.isLt row
  have next (back : Frame) (memory : μ) := outcome_nextLine
    { ofRaster { raster with beam := .visible line .horizontalBlank } with back } line
    rfl (Nat.lt_trans bound (by decide)) memory
  simp only [ofRaster, Beam.mode, Beam.line] at next ⊢
  simp only [advance, outcome_bind, Scanline.outcome_renderChecked, Checked.ok_bind, outcome_check,
    set, Checked.map_ok, next, toNat_next]
  by_cases more : line.val + 1 < screenHeight
  · rw [if_neg (Nat.ne_of_lt more)]
    simp [Raster.finishLine, more, Beam.afterVisible]
  · have last : line.val + 1 = screenHeight := by omega
    rw [if_pos last]
    simp [-UInt8.ofNat_add, Raster.finishLine, last, Beam.afterVisible, Raster.beginBlank]

/-- A line of the vertical blank is followed by another one or, after the last one, by a frame. -/
theorem outcome_finishBlankLine (raster : Raster) (line : Fin blankLines) (memory : μ)
    (fits : line.val + 1 = blankLines → raster.frames + 1 < UInt64.size) :
    (ofRaster { raster with beam := .blank line }).advance.outcome memory =
      let after := (raster.finishBlankLine line).run memory
      .ok ((decide (line.val + 1 = blankLines), ofRaster after.1), after.2) := by
  have bound : line.val < 10 := line.isLt
  have toNat_next :
      (UInt8.ofNat (screenHeight + line.val + 1)).toNat = screenHeight + line.val + 1 :=
    UInt8.toNat_ofNat_of_lt' (by simp only [screenHeight, UInt8.size]; omega)
  have next := outcome_nextLine (ofRaster { raster with beam := .blank line })
    (screenHeight + line.val) rfl (Nat.add_lt_add_left bound _) memory
  simp only [ofRaster, Beam.mode, Beam.line] at next ⊢
  simp only [advance, outcome_bind, next, Checked.ok_bind, toNat_next]
  by_cases more : line.val + 1 < blankLines
  · have inFrame : screenHeight + line.val + 1 ≠ frameLines :=
      Nat.ne_of_lt (Nat.add_lt_add_left more screenHeight)
    rw [if_neg inFrame]
    simp [-UInt8.ofNat_add, Raster.finishBlankLine, more, Beam.afterBlank, Nat.ne_of_lt more,
      Nat.add_assoc]
  · have last : line.val + 1 = blankLines := by omega
    have frames : Checked.add (UInt64.ofNat raster.frames) 1 = .ok (.ofNat (raster.frames + 1)) :=
      Checked.add_eq_ok (by
        have fits := fits last
        simp only [UInt64.size] at fits
        simp only [FixedWidth.toInt_quad, UInt64.toNat_ofNat', UInt64.reduceToNat]
        omega)
    have ends : screenHeight + line.val + 1 = frameLines := congrArg (screenHeight + ·) last
    rw [if_pos ends]
    simp [Raster.finishBlankLine, last, present, frames, Raster.present, Raster.showLine,
      Beam.start]

/-- A display in one of its states passes to the next mode without a fault. -/
theorem outcome_advance (raster : Raster) (memory : μ)
    (fits : (raster.advance.run memory).1.frames < UInt64.size) :
    (ofRaster raster).advance.outcome memory =
      let after := raster.advance.run memory
      .ok ((raster.beam.endsFrame, ofRaster after.1), after.2) := by
  have counted := raster.frames_advance memory
  obtain ⟨beam, back, front, frames⟩ := raster
  cases beam with
  | visible line stage =>
    cases stage with
    | search => simp [advance, Raster.advance, ofRaster, Beam.mode, Beam.line, Beam.endsFrame]
    | transfer => simp [advance, Raster.advance, ofRaster, Beam.mode, Beam.line, Beam.endsFrame]
    | horizontalBlank => exact outcome_finishLine ⟨_, back, front, frames⟩ line memory
  | blank line =>
    refine outcome_finishBlankLine ⟨_, back, front, frames⟩ line memory fun last => ?_
    rwa [counted, Beam.endsFrame, if_pos (decide_eq_true last)] at fits

/-! ## Letting dots pass -/

omit [Memory μ] in
theorem lt_of_sub_budget {cycles left : UInt32} {mode : Mode}
    (spent : Checked.sub cycles mode.budget = .ok left) : left.toNat < cycles.toNat := by
  have difference := Checked.exact_eq_ok_iff.1 spent
  have pos := mode.dots_pos
  simp only [FixedWidth.toInt_double, Mode.toNat_budget] at difference
  omega

/-- Passes all modes for which the dots suffice. Gives whether a frame was completed, now or before,
the dots that are left, and the display. -/
def elapse (display : BoundedDisplay) (cycles : UInt32) (completed : Bool) :
    CheckedTransaction (Bool × UInt32 × BoundedDisplay) :=
  if display.mode.budget ≤ cycles then
    match _ : Checked.sub cycles display.mode.budget with
    | .error fault => throw fault
    | .ok left => do
      let (ends, display) ← display.advance
      display.elapse left (completed || ends)
  else
    return (completed, cycles, display)
termination_by cycles.toNat
decreasing_by exact lt_of_sub_budget ‹_›

omit [Memory μ] in
theorem sub_budget {cycles : UInt32} {mode : Mode} (enough : mode.dots ≤ cycles.toNat) :
    Checked.sub cycles mode.budget = .ok (cycles - mode.budget) ∧
      (cycles - mode.budget).toNat = cycles.toNat - mode.dots := by
  have left : (cycles - mode.budget).toNat = cycles.toNat - mode.dots := by
    rw [UInt32.toNat_sub_of_le _ _ (by rwa [UInt32.le_iff_toNat_le, Mode.toNat_budget]),
      Mode.toNat_budget]
  refine ⟨Checked.sub_eq_ok ?_, left⟩
  simp only [FixedWidth.toInt_double, left, Mode.toNat_budget]
  omega

/-- A count has grown if it did so before some moment or after it. -/
theorem decide_lt_split {before between after : Nat} (kept : before ≤ between)
    (grown : between ≤ after) :
    (decide (before < between) || decide (between < after)) = decide (before < after) := by
  rw [← Bool.decide_or]
  exact decide_eq_decide.2 (by omega)

theorem outcome_elapse_of_le {display : BoundedDisplay} {cycles left : UInt32}
    (spent : Checked.sub cycles display.mode.budget = .ok left) (completed : Bool) (memory : μ) :
    (display.elapse cycles completed).outcome memory = (do
      let after ← display.advance.outcome memory
      (after.1.2.elapse left (completed || after.1.1)).outcome after.2) := by
  have enough : display.mode.budget ≤ cycles := by
    have difference := Checked.exact_eq_ok_iff.1 spent
    simp only [FixedWidth.toInt_double] at difference
    rw [UInt32.le_iff_toNat_le]
    omega
  rw [elapse, if_pos enough]
  split
  · rename_i fault
    cases spent.symm.trans fault
  · rename_i found
    cases spent.symm.trans found
    exact outcome_bind _ _ _

/-- Dots pass without a fault if the counter of the frames holds those that are completed. -/
theorem outcome_elapse (raster : Raster) (cycles : UInt32) (completed : Bool) (memory : μ)
    (fits : ((raster.elapse cycles.toNat).run memory).1.frames < UInt64.size) :
    ((ofRaster raster).elapse cycles completed).outcome memory =
      let after := (raster.elapse cycles.toNat).run memory
      .ok ((completed || decide (raster.frames < after.1.frames), .ofNat after.1.dots,
        ofRaster after.1.toRaster), after.2) := by
  induction dots : cycles.toNat using Nat.strongRecOn
    generalizing raster cycles completed memory with
  | ind _ ih =>
    subst dots
    rcases Nat.lt_or_ge cycles.toNat raster.beam.mode.dots with few | enough
    · have less : ¬(ofRaster raster).mode.budget ≤ cycles := by
        rw [UInt32.le_iff_toNat_le, Mode.toNat_budget]
        exact Nat.not_le_of_lt few
      rw [elapse, if_neg less, Raster.run_elapse_of_lt raster memory few]
      simp
    · obtain ⟨spent, toNat_left⟩ := sub_budget enough
      rw [Raster.run_elapse_of_le raster memory enough, ← toNat_left] at fits ⊢
      have grown := Raster.frames_le_elapse (raster.advance.run memory).1
        (cycles - raster.beam.mode.budget).toNat (raster.advance.run memory).2
      have counted := raster.frames_advance memory
      have kept : raster.frames ≤ (raster.advance.run memory).1.frames :=
        counted ▸ Nat.le_add_right _ _
      have ends : raster.beam.endsFrame =
          decide (raster.frames < (raster.advance.run memory).1.frames) := by
        rw [counted]
        cases raster.beam.endsFrame <;> simp
      have pos := raster.beam.mode.dots_pos
      rw [outcome_elapse_of_le (by exact spent),
        outcome_advance raster memory (Nat.lt_of_le_of_lt grown fits), Checked.ok_bind,
        ih _ (by omega) _ _ _ _ fits rfl]
      dsimp only
      rw [ends, Bool.or_assoc, decide_lt_split kept grown]

/-! ## Ticks -/

/-- Takes the whole frames beyond two out of a tick. Gives whether there are any, the frames with
them, and the dots that are left with those spent in the mode. That there are not two is no fault.
-/
def skip (frames : UInt64) (cycles dots : UInt32) : Checked (Bool × UInt64 × UInt32) := do
  let skipped := UInt32.ofNat ((dots / frameBudget).toNat - 2)
  let frames ← Checked.add frames skipped.toUInt64
  let skippedDots ← Checked.mul skipped frameBudget
  let rest ← Checked.sub dots skippedDots
  let cycles ← Checked.add cycles rest
  return (0 < skipped, frames, cycles)

/-- Lets dots pass. Gives whether a frame was completed, the dots spent in the mode, and the
display. -/
def tick (display : BoundedDisplay) (cycles dots : UInt32) :
    CheckedTransaction (Bool × UInt32 × BoundedDisplay) := do
  let (skips, frames, cycles) ← skip display.frames cycles dots
  elapse { display with frames } cycles skips

/-- What is left after the skipped frames is less than three of them. -/
theorem rest_lt (dots : Nat) : dots - Ppu.skipped dots * frameDots < 3 * frameDots := by
  simp only [Ppu.skipped, frameDots_eq]
  omega

theorem skip_eq {frames spent : Nat} (dots : UInt32) (room : frames < UInt64.size - UInt32.size)
    (inMode : spent < lineDots) :
    let skipped := Ppu.skipped dots.toNat
    skip (.ofNat frames) (.ofNat spent) dots =
      .ok (0 < skipped, .ofNat (frames + skipped),
        .ofNat (spent + (dots.toNat - skipped * frameDots))) := by
  have := dots.toNat_lt
  have whole := Ppu.skipped_mul_le dots.toNat
  have few := rest_lt dots.toNat
  have skips : UInt32.ofNat ((dots / frameBudget).toNat - 2) = .ofNat (Ppu.skipped dots.toNat) := by
    rw [UInt32.toNat_div, toNat_frameBudget, Ppu.skipped]
  dsimp only
  rw [skip, skips]
  generalize Ppu.skipped dots.toNat = skipped at *
  simp only [frameDots_eq, lineDots] at *
  have small : skipped < UInt32.size := by
    simp only [UInt32.size]
    omega
  have toNat_skipped : (UInt32.ofNat skipped).toNat = skipped := UInt32.toNat_ofNat_of_lt' small
  have skippedDots : Checked.mul (UInt32.ofNat skipped) frameBudget =
      .ok (.ofNat (skipped * 70224)) := Checked.mul_eq_ok (by
    simp only [FixedWidth.toInt_double, toNat_skipped, UInt32.toNat_ofNat', toNat_frameBudget,
      frameDots_eq]
    omega)
  have rest : Checked.sub dots (.ofNat (skipped * 70224)) =
      .ok (.ofNat (dots.toNat - skipped * 70224)) := Checked.sub_eq_ok (by
    simp only [FixedWidth.toInt_double, UInt32.toNat_ofNat']
    omega)
  have cycles : Checked.add (UInt32.ofNat spent) (.ofNat (dots.toNat - skipped * 70224)) =
      .ok (.ofNat (spent + (dots.toNat - skipped * 70224))) := Checked.add_eq_ok (by
    simp only [FixedWidth.toInt_double, UInt32.toNat_ofNat']
    omega)
  have counts : 0 < UInt32.ofNat skipped ↔ 0 < skipped := by
    rw [UInt32.lt_iff_toNat_lt, toNat_skipped, UInt32.toNat_zero]
  simp only [Checked.add_widened room small, skippedDots, rest, cycles, Checked.ok_bind, counts]
  rfl

/-- A tick has no fault, however many dots it has. -/
theorem outcome_tick (ppu : Ppu) (dots : UInt32) (memory : μ)
    (room : ppu.frames < UInt64.size - UInt32.size) :
    ((ofRaster ppu.toRaster).tick (.ofNat ppu.dots) dots).outcome memory =
      let after := (ppu.tick dots.toNat).run memory
      .ok ((after.1.1, .ofNat after.1.2.dots, ofRaster after.1.2.toRaster), after.2) := by
  have fits : ((ppu.tick dots.toNat).run memory).1.2.frames < UInt64.size := by
    have few := ppu.frames_tick_le dots memory
    simp only [UInt64.size, UInt32.size] at *
    omega
  have inMode := Nat.lt_of_lt_of_le ppu.dots_lt ppu.beam.mode.dots_le
  have few := rest_lt dots.toNat
  have skips := skip_eq dots room inMode
  rw [Ppu.run_tick] at fits ⊢
  simp only [Ppu.outcome_completed, Ppu.outcome_ppu, Ppu.outcome_memory] at fits ⊢
  rw [tick, frames_ofRaster, outcome_bind_check skips]
  generalize Ppu.skipped dots.toNat = skipped at *
  generalize passes : ppu.dots + (dots.toNat - skipped * frameDots) = cycles at *
  have toNat_cycles : (UInt32.ofNat cycles).toNat = cycles :=
    UInt32.toNat_ofNat_of_lt' (by simp only [UInt32.size, frameDots_eq, lineDots] at *; omega)
  have elapses := outcome_elapse { ppu.toRaster with frames := ppu.frames + skipped }
    (.ofNat cycles) (0 < skipped) memory (by rwa [toNat_cycles])
  rw [toNat_cycles] at elapses
  have grown := Raster.frames_le_elapse { ppu.toRaster with frames := ppu.frames + skipped }
    cycles memory
  have skips : decide (0 < skipped) = decide (ppu.frames < ppu.frames + skipped) := by simp
  refine elapses.trans ?_
  dsimp only
  rw [skips, decide_lt_split (Nat.le_add_right ppu.frames skipped) grown]

end BoundedDisplay

end DotMatrix
