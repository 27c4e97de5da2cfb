import DotMatrix.Proofs.Video.Film

/-!
# The steady state

When nobody else writes to the memory, two frames bring the display and the memory into a state that
depends on nothing but the clock: both frames show the lines of that memory, and the registers follow
from the position. So whole frames beyond two may be counted without being drawn, and it does not
matter how dots are divided among ticks.

Results:
1. `run_elapse_eq_of_long`: runs of two frames and more that end at the same clock end alike.
2. `run_tick_eq_elapse`: a tick is the same as letting all its dots pass.
3. `run_tick_add`, `run_singleTicks`: ticks one after the other are one tick of all their dots.
4. `tick_eq_single_ticks`: the three together.
-/

namespace DotMatrix

open Memory

variable {μ : Type} [Memory μ]

/-! ## Two frames are enough -/

theorem Ppu.eq_of_parts {ppu other : Ppu} (frames : ppu.frames = other.frames)
    (beam : ppu.beam = other.beam) (dots : ppu.dots = other.dots) (front : ppu.front = other.front)
    (back : ppu.back = other.back) : ppu = other := by
  obtain ⟨⟨_, _, _, _⟩, _, _⟩ := ppu
  obtain ⟨⟨_, _, _, _⟩, _, _⟩ := other
  cases frames
  cases beam
  cases dots
  cases front
  cases back
  rfl

/-- Once two frames' time has passed, the display and the memory follow from the clock and from what
the memory was. -/
theorem Raster.run_elapse_eq_of_long [PlainMemory μ] {raster other : Raster} {dots dots' : Nat}
    (memory : μ) (long : 2 * frameDots ≤ dots) (long' : 2 * frameDots ≤ dots')
    (clocks : raster.clock + dots = other.clock + dots') :
    (raster.elapse dots).run memory = (other.elapse dots').run memory := by
  have reached : ((raster.elapse dots).run memory).1.clock =
      ((other.elapse dots').run memory).1.clock := by
    rw [Ppu.clock, clock_elapse, clocks, ← clock_elapse other dots' memory, Ppu.clock]
  obtain ⟨frames, beam, left⟩ := Ppu.eq_of_clock_eq reached
  have drawn := raster.frames_elapse_of_long memory long
  have drawn' := other.frames_elapse_of_long memory long'
  refine Prod.ext (Ppu.eq_of_parts frames beam left ?_ ?_) ?_
  · exact Vector.ext fun line bound => (drawn ⟨line, bound⟩).1.trans (drawn' ⟨line, bound⟩).1.symm
  · exact Vector.ext fun line bound => (drawn ⟨line, bound⟩).2.trans (drawn' ⟨line, bound⟩).2.symm
  · have one_le_two : frameDots ≤ 2 * frameDots := Nat.le_mul_of_pos_left _ Nat.two_pos
    have shows := shows_elapse raster memory (Nat.le_trans one_le_two long)
    have shows' := shows_elapse other memory (Nat.le_trans one_le_two long')
    rw [← beam] at shows'
    exact shows.unique shows'

/-- The frames that a tick skips leave nothing behind but their number. -/
theorem Ppu.run_tick_eq_elapse [PlainMemory μ] (ppu : Ppu) (dots : Nat) (memory : μ) :
    (ppu.tick dots).run memory =
      outcome ppu.frames ((ppu.toRaster.elapse (ppu.dots + dots)).run memory) := by
  rw [run_tick]
  refine congrArg (outcome ppu.frames) ?_
  rcases Nat.eq_zero_or_pos (skipped dots) with all | skips
  · -- Fewer than three frames: nothing is skipped.
    rw [all, Nat.zero_mul, Nat.sub_zero, Nat.add_zero]
  · have whole : skipped dots = dots / 70224 - 2 := rfl
    refine Raster.run_elapse_eq_of_long memory ?_ ?_ ?_
    · simp only [frameDots_eq]
      omega
    · simp only [frameDots_eq]
      omega
    · simp only [Raster.clock, Beam.beginsAt, frameDots_eq]
      omega

/-! ## Dividing the dots among ticks -/

/-- Letting dots pass in two parts is letting all of them pass. -/
theorem Raster.run_elapse_add (raster : Raster) (first second : Nat) (memory : μ) :
    let between := (raster.elapse first).run memory
    (raster.elapse (first + second)).run memory =
      (between.1.toRaster.elapse (between.1.dots + second)).run between.2 :=
  run_elapse_invariant
    (fun raster' dots' memory' => (raster.elapse (first + second)).run memory =
      (raster'.elapse (dots' + second)).run memory')
    (fun raster' dots' memory' enough same => by
      rw [same, run_elapse_of_le raster' memory' (Nat.le_add_right_of_le enough),
        Nat.sub_add_comm enough])
    raster first memory rfl

theorem Raster.frames_le_elapse (raster : Raster) (dots : Nat) (memory : μ) :
    raster.frames ≤ ((raster.elapse dots).run memory).1.frames :=
  run_elapse_invariant (fun raster' _ _ => raster.frames ≤ raster'.frames)
    (fun raster' dots' memory' _ grown => by
      rw [frames_advance]
      exact Nat.le_add_right_of_le grown)
    raster dots memory (Nat.le_refl _)

namespace Ppu

/-- As many ticks of a single dot, with what each of them says. -/
def singleTicks (ppu : Ppu) : Nat → Transaction (List Bool × Ppu)
  | 0 => return ([], ppu)
  | dots + 1 => do
      let first ← ppu.tick 1
      let others ← first.2.singleTicks dots
      return (first.1 :: others.1, others.2)

theorem run_singleTicks_succ (ppu : Ppu) (dots : Nat) (memory : μ) :
    let first := (ppu.tick 1).run memory
    let others := (first.1.2.singleTicks dots).run first.2
    (ppu.singleTicks (dots + 1)).run memory =
      ((first.1.1 :: others.1.1, others.1.2), others.2) := by
  rw [singleTicks, Transaction.run_bind, Transaction.run_bind, Transaction.run_pure]

omit [Memory μ] in
/-- A frame is completed in a time if it is in one of the two parts of that time. -/
theorem outcome_split {frames between : Nat} {after : Ppu × μ} (start_le : frames ≤ between)
    (le_after : between ≤ after.1.frames) :
    outcome frames after =
      ((decide (frames < between) || (outcome between after).1.1, (outcome between after).1.2),
        (outcome between after).2) := by
  refine Prod.ext (Prod.ext ?_ rfl) rfl
  rw [outcome_completed, outcome_completed, ← Bool.decide_or]
  refine decide_eq_decide.2 ⟨fun grown => ?_, ?_⟩
  · exact (Nat.lt_or_ge frames between).imp_right fun kept => Nat.lt_of_le_of_lt kept grown
  · rintro (earlier | later)
    · exact Nat.lt_of_lt_of_le earlier le_after
    · exact Nat.lt_of_le_of_lt start_le later

variable [PlainMemory μ]

theorem run_tick_zero (ppu : Ppu) (memory : μ) :
    (ppu.tick 0).run memory = ((false, ppu), memory) := by
  rw [run_tick_eq_elapse, Nat.add_zero, Raster.run_elapse_of_lt ppu.toRaster memory ppu.dots_lt,
    outcome, decide_eq_false (Nat.lt_irrefl _)]

/-- Two ticks are one tick of their dots. -/
theorem run_tick_add (ppu : Ppu) (first second : Nat) (memory : μ) :
    let between := (ppu.tick first).run memory
    let after := (between.1.2.tick second).run between.2
    (ppu.tick (first + second)).run memory =
      ((between.1.1 || after.1.1, after.1.2), after.2) := by
  dsimp only
  rw [run_tick_eq_elapse ppu first memory]
  simp only [outcome_completed, outcome_ppu, outcome_memory]
  rw [run_tick_eq_elapse, run_tick_eq_elapse, ← Nat.add_assoc, Raster.run_elapse_add]
  exact outcome_split (Raster.frames_le_elapse _ _ _) (Raster.frames_le_elapse _ _ _)

/-- Ticks of a single dot are one tick of all of them. -/
theorem run_singleTicks (ppu : Ppu) (dots : Nat) (memory : μ) :
    let each := (ppu.singleTicks dots).run memory
    (ppu.tick dots).run memory = ((each.1.1.any id, each.1.2), each.2) := by
  induction dots generalizing ppu memory with
  | zero => exact run_tick_zero ppu memory
  | succ dots ih =>
    rw [Nat.add_comm dots 1, run_tick_add, ih, Nat.add_comm 1 dots, run_singleTicks_succ]
    -- The pairs are opened first: comparing them as they are would run the ticks.
    dsimp only
    rw [List.any_cons, id_eq]

/-- A tick does what as many ticks of a single dot do, and says whether one of them completed a
frame. Neither the frames that it skips make a difference nor a division of its dots in two. What a
tick says is also what the positions that it passes say, collected one by one
(`BoundedDisplay.outcome_tick`). -/
theorem tick_eq_single_ticks (ppu : Ppu) (dots : Nat) (memory : μ) :
    let each := (ppu.singleTicks dots).run memory
    (ppu.tick dots).run memory = ((each.1.1.any id, each.1.2), each.2) ∧
    (ppu.tick dots).run memory =
      outcome ppu.frames ((ppu.toRaster.elapse (ppu.dots + dots)).run memory) ∧
    ∀ first second, first + second = dots →
      let between := (ppu.tick first).run memory
      let after := (between.1.2.tick second).run between.2
      (ppu.tick dots).run memory = ((between.1.1 || after.1.1, after.1.2), after.2) := by
  refine ⟨run_singleTicks ppu dots memory, run_tick_eq_elapse ppu dots memory, ?_⟩
  rintro first second rfl
  exact run_tick_add ppu first second memory

end Ppu

end DotMatrix
