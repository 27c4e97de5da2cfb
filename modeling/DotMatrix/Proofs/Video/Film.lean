import DotMatrix.Proofs.Video.Picture
import DotMatrix.Proofs.Video.Registers

/-!
# The film

The frames that a display draws, one after the other, are a film: two frames that were there before,
then the first one drawn, and so on. Two of its frames are in the display at any time. The front is
the last one completed; the back shows the one being drawn down to the line of the beam, and below
it still the one before the last.

Results:
1. `Exposed.advance`: a pass keeps this relation, provided the line it draws is the film's.
2. `Exposed.elapse`: so does any number of dots, with all lines drawn from the memory at the start.
3. `frames_elapse_of_long`: after two frames' time both frames show nothing but these lines.
-/

namespace DotMatrix.Raster

open Memory

/-- The clock when a line of a frame is drawn. -/
def drawnAt (frame : Nat) (line : Fin screenHeight) : Nat :=
  (Beam.visible line .horizontalBlank).endsAt frame

theorem drawnAt_eq (frame : Nat) (line : Fin screenHeight) :
    drawnAt frame line = frame * 70224 + 456 * (line.val + 1) := by
  simp only [drawnAt, Beam.endsAt, Beam.beginsAt, Beam.offset, Stage.offset, Beam.mode, Mode.dots,
    frameDots_eq]
  omega

/-- The lines of earlier frames and those above the beam are drawn, and no others. -/
theorem drawnAt_le_iff {raster : Raster} {frame : Nat} {line : Fin screenHeight} {dots : Nat}
    (within : dots < raster.beam.mode.dots) :
    drawnAt frame line ≤ raster.clock + dots ↔
      frame < raster.frames ∨ frame = raster.frames ∧ line.val < raster.beam.line := by
  have bound := line.isLt
  have inFrame := raster.beam.offset_add_dots_le
  have place := Beam.line_eq within
  simp only [screenHeight] at bound
  simp only [drawnAt_eq, clock, Beam.beginsAt, frameDots_eq]
  omega

/-- The frames in the display are two of a film, of which the first two frames were never drawn. -/
structure Exposed (film : Nat → Fin screenHeight → Row) (raster : Raster) : Prop where
  front : ∀ line : Fin screenHeight, raster.front.get line = film (raster.frames + 1) line
  back : ∀ line : Fin screenHeight, raster.back.get line =
    film (if line.val < raster.beam.line then raster.frames + 2 else raster.frames) line

variable {film : Nat → Fin screenHeight → Row} {μ : Type} [Memory μ]

theorem raster_finishBlankLine (raster : Raster) (line : Fin blankLines) (memory : μ) :
    ((raster.finishBlankLine line).run memory).1 =
      if line.val + 1 < blankLines then { raster with beam := .afterBlank line }
      else { raster.present with beam := .start } := by
  simp only [finishBlankLine, Transaction.run_bind]
  split <;> rfl

/-- A line ends: its row is the film's next one, and the other rows stay. -/
theorem Exposed.finishLine {raster : Raster} {line : Fin screenHeight}
    (here : raster.beam = .visible line .horizontalBlank) (exposed : Exposed film raster)
    (memory : μ)
    (drawn : film (raster.frames + 2) line =
      ((Scanline.render (.ofNat line.val)).run memory).1) :
    Exposed film ((raster.finishLine line).run memory).1 := by
  have lines : raster.beam.line = line.val := by rw [here]; rfl
  rw [raster_finishLine]
  refine ⟨exposed.front, fun other => ?_⟩
  have old := exposed.back other
  rw [lines] at old
  rw [Beam.line_afterVisible]
  by_cases same : other = line
  · subst same
    rw [if_pos (Nat.lt_succ_self _), drawn]
    exact Vector.getElem_set_self other.isLt
  · have apart : line.val ≠ other.val := fun equal => same (Fin.ext equal.symm)
    have kept :
        (raster.back.set line ((Scanline.render (.ofNat line.val)).run memory).1).get other =
          raster.back.get other := Vector.getElem_set_ne _ _ apart
    rw [kept, old]
    by_cases above : other.val < line.val
    · rw [if_pos above, if_pos (Nat.lt_succ_of_lt above)]
    · rw [if_neg above, if_neg (by omega)]

/-- A line of the vertical blank ends: the frame is drawn, and after the last line presented. -/
theorem Exposed.finishBlankLine {raster : Raster} {line : Fin blankLines}
    (here : raster.beam = .blank line) (exposed : Exposed film raster) (memory : μ) :
    Exposed film ((raster.finishBlankLine line).run memory).1 := by
  have drawn (row : Fin screenHeight) : raster.back.get row = film (raster.frames + 2) row := by
    rw [exposed.back, if_pos]
    rw [here]
    exact Nat.lt_of_lt_of_le row.isLt (Nat.le_add_right _ _)
  rw [raster_finishBlankLine]
  by_cases more : line.val + 1 < blankLines
  · rw [if_pos more]
    refine ⟨exposed.front, fun row => ?_⟩
    rw [drawn, if_pos]
    rw [Beam.afterBlank, dif_pos more]
    exact Nat.lt_of_lt_of_le row.isLt (Nat.le_add_right _ _)
  · rw [if_neg more]
    -- The two frames change places, and none of the next one's lines is drawn.
    exact ⟨drawn, exposed.front⟩

/-- A pass keeps the frames those of the film, provided the line it draws is the film's. -/
theorem Exposed.advance {raster : Raster} (exposed : Exposed film raster) (memory : μ)
    (drawn : ∀ line, raster.beam = .visible line .horizontalBlank →
      film (raster.frames + 2) line = ((Scanline.render (.ofNat line.val)).run memory).1) :
    Exposed film (raster.advance.run memory).1 := by
  cases here : raster.beam with
  | visible line stage =>
    cases stage with
    | search =>
      have same : (raster.advance.run memory).1 =
          { raster with beam := .visible line .transfer } := by
        simp only [Raster.advance, here, Transaction.run_bind, Transaction.run_pure]
      rw [same]
      exact ⟨exposed.front, fun row => by rw [exposed.back, here]; rfl⟩
    | transfer =>
      have same : (raster.advance.run memory).1 =
          { raster with beam := .visible line .horizontalBlank } := by
        simp only [Raster.advance, here, Transaction.run_bind, Transaction.run_pure]
      rw [same]
      exact ⟨exposed.front, fun row => by rw [exposed.back, here]; rfl⟩
    | horizontalBlank =>
      have finish : raster.advance = raster.finishLine line := by simp only [Raster.advance, here]
      rw [finish]
      exact exposed.finishLine here memory (drawn line here)
  | blank line =>
    have finish : raster.advance = raster.finishBlankLine line := by
      simp only [Raster.advance, here]
    rw [finish]
    exact exposed.finishBlankLine here memory

/-! ## Letting dots pass -/

variable [PlainMemory μ]

/-- Any number of dots keeps the frames those of the film, provided the lines that are drawn are
what the memory at the start shows; what the display writes in the meantime has no part in it. -/
theorem Exposed.elapse {raster : Raster} {memory : μ} {start dots : Nat}
    (exposed : Exposed film raster) (inside : start < raster.clock + raster.beam.mode.dots)
    (drawn : ∀ frame line, start < drawnAt frame line → drawnAt frame line ≤ raster.clock + dots →
      film (frame + 2) line = ((Scanline.render (.ofNat line.val)).run memory).1) :
    Exposed film ((raster.elapse dots).run memory).1.toRaster := by
  have final := run_elapse_invariant
    (fun raster' dots' memory' => Undisturbed memory memory' ∧
      start < raster'.clock + raster'.beam.mode.dots ∧
      raster'.clock + dots' = raster.clock + dots ∧ Exposed film raster')
    (fun raster' dots' memory' enough ⟨same, inside', total, exposed'⟩ => by
      refine ⟨same.advance raster', ?_, ?_, exposed'.advance memory' fun line here => ?_⟩
      · rw [clock_advance]
        exact Nat.lt_of_lt_of_le inside' (Nat.le_add_right _ _)
      · rw [clock_advance]
        omega
      -- The line is drawn at the end of this position, so after the start and within the dots.
      · have reached : drawnAt raster'.frames line = raster'.clock + raster'.beam.mode.dots := by
          rw [clock, here]
          rfl
        rw [same.render_eq, drawn raster'.frames line (by omega) (by omega)])
    raster dots memory ⟨.refl memory, inside, rfl, exposed⟩
  exact final.2.2.2

/-- Every display shows frames of some film, in which the lines still to be drawn are given. -/
theorem exists_exposed (raster : Raster) (rows : Fin screenHeight → Row) :
    ∃ film, Exposed film raster ∧
      ∀ frame line, raster.clock < drawnAt frame line → film (frame + 2) line = rows line := by
  refine ⟨fun index line =>
    if 2 ≤ index ∧ raster.clock < drawnAt (index - 2) line then rows line
    else if index = raster.frames + 1 then raster.front.get line else raster.back.get line, ?_, ?_⟩
  · have passed {frame : Nat} {line : Fin screenHeight}
        (drawn : frame < raster.frames ∨ frame = raster.frames ∧ line.val < raster.beam.line) :
        ¬ raster.clock < drawnAt frame line := by
      have ended := (drawnAt_le_iff raster.beam.mode.dots_pos).2 drawn
      rw [Nat.add_zero] at ended
      exact Nat.not_lt_of_le ended
    refine ⟨fun line => ?_, fun line => ?_⟩
    · have earlier (two : 2 ≤ raster.frames + 1) : raster.frames + 1 - 2 < raster.frames := by omega
      exact ((if_neg fun both => passed (.inl (earlier both.1)) both.2).trans (if_pos rfl)).symm
    · by_cases above : line.val < raster.beam.line
      · rw [if_pos above]
        refine ((if_neg fun both => passed (.inr ⟨?_, above⟩) both.2).trans (if_neg ?_)).symm
        · exact Nat.add_sub_cancel _ _
        · omega
      · rw [if_neg above]
        have earlier (two : 2 ≤ raster.frames) : raster.frames - 2 < raster.frames := by omega
        refine ((if_neg fun both => passed (.inl (earlier both.1)) both.2).trans (if_neg ?_)).symm
        omega
  · intro frame line ahead
    exact if_pos ⟨Nat.le_add_left _ _, ahead⟩

/-- After two frames' time every line of both frames is what the memory shows. -/
theorem frames_elapse_of_long (raster : Raster) {dots : Nat} (memory : μ)
    (long : 2 * frameDots ≤ dots) (line : Fin screenHeight) :
    let after := ((raster.elapse dots).run memory).1
    let row := ((Scanline.render (.ofNat line.val)).run memory).1
    after.front.get line = row ∧ after.back.get line = row := by
  intro after row
  obtain ⟨film, exposed, ahead⟩ := exists_exposed raster fun line =>
    ((Scanline.render (.ofNat line.val)).run memory).1
  have inside := Nat.lt_add_of_pos_right (n := raster.clock) raster.beam.mode.dots_pos
  have final : Exposed film after.toRaster :=
    exposed.elapse inside fun frame line after_start _ => ahead frame line after_start
  have total : after.frames * 70224 + (after.beam.offset + after.dots) = raster.clock + dots := by
    rw [← raster.clock_elapse dots memory, ← Nat.add_assoc]
    rfl
  have inFrame : after.beam.offset + after.dots < 70224 := after.offset_add_dots_lt
  have place := Beam.line_eq after.dots_lt
  rw [frameDots_eq] at long
  -- Two whole frames are behind the display, so these are not its first two.
  obtain ⟨earlier, frames⟩ : ∃ earlier, after.frames = earlier + 2 :=
    ⟨after.frames - 2, by omega⟩
  have newer (frame : Nat) (whole : earlier < frame) : film (frame + 2) line = row :=
    ahead frame line (by rw [drawnAt_eq]; omega)
  constructor
  · rw [final.front, frames]
    exact newer (earlier + 1) (Nat.lt_succ_self _)
  · rw [final.back, frames]
    by_cases drawn : line.val < after.beam.line
    · rw [if_pos drawn]
      exact newer (earlier + 2) (Nat.lt_add_of_pos_right Nat.two_pos)
    · rw [if_neg drawn]
      exact ahead earlier line (by rw [drawnAt_eq]; omega)

end DotMatrix.Raster
