import DotMatrix.Proofs.Video.History
import DotMatrix.Proofs.Video.Steady

/-!
# The frame presented

Which picture a display shows after a history. A line of it was drawn when its horizontal blank ended
in the last frame that was completed, and shows the memory as it stood in the tick in which that
happened. Neither what a buffer held before nor what was written to the memory later is seen.

Results:
1. `exposed_replay`: the frames in the display stay those of one film during a whole history.
2. `front_replay`: the picture shown after a history of a new display.
3. `frame_replay`: the picture before the first frame, after a tick that completes none and after
   one that does.
-/

namespace DotMatrix.Ppu

open Raster

variable {μ : Type} [Memory μ]

/-- The memory at the start of the action in which a time is reached, counted from the start of the
history. -/
def during (time : Nat) : List Action → Ppu × μ → μ
  | [], state => state.2
  | action :: rest, state =>
      if time ≤ action.dots then state.2
      else during (time - action.dots) rest (perform state action)

/-- A time in a history is in one of its ticks. -/
theorem exists_during {time : Nat} {actions : List Action} (state : Ppu × μ) (later : 0 < time)
    (inside : time ≤ elapsed actions) :
    ∃ before dots rest, actions = before ++ .tick dots :: rest ∧
      elapsed before < time ∧ time ≤ elapsed before + dots ∧
      during time actions state = (replay before state).2 := by
  induction actions generalizing time state with
  | nil => exact absurd inside (Nat.not_le_of_lt later)
  | cons action actions ih =>
    by_cases reached : time ≤ action.dots
    · cases action with
      | write address value => exact absurd reached (Nat.not_le_of_lt later)
      | tick dots =>
        refine ⟨[], dots, actions, rfl, later, ?_, if_pos reached⟩
        rw [elapsed, Nat.zero_add]
        exact reached
    · rw [elapsed] at inside
      obtain ⟨before, dots, rest, rfl, after, upto, memory⟩ :=
        @ih (time - action.dots) (perform state action) (by omega) (by omega)
      refine ⟨action :: before, dots, rest, rfl, ?_, ?_, ?_⟩
      · rw [elapsed]
        omega
      · rw [elapsed]
        omega
      · rw [during, if_neg reached, memory]
        rfl

variable [PlainMemory μ]

/-- A history keeps the frames in the display those of a film if each line of the film that is drawn
in its time shows the memory as it was in the tick in which that happens. -/
theorem exposed_replay {film : Nat → Fin screenHeight → Row} {actions : List Action}
    {state : Ppu × μ} (exposed : Exposed film state.1.toRaster)
    (drawn : ∀ frame line, state.1.clock < drawnAt frame line →
      drawnAt frame line ≤ state.1.clock + elapsed actions →
      film (frame + 2) line = ((Scanline.render (.ofNat line.val)).run
        (during (drawnAt frame line - state.1.clock) actions state)).1) :
    Exposed film (replay actions state).1.toRaster := by
  induction actions generalizing state with
  | nil => exact exposed
  | cons action actions ih =>
    rw [elapsed] at drawn
    have first : Exposed film (perform state action).1.toRaster := by
      cases action with
      | write address value => exact exposed
      | tick dots =>
        rw [perform, settled_ppu, run_tick_eq_elapse, outcome_ppu]
        have inside := Nat.add_lt_add_left state.1.dots_lt state.1.toRaster.clock
        refine exposed.elapse inside fun frame line after upto => ?_
        rw [← Nat.add_assoc] at upto
        -- The line is drawn in the first tick of the history, which starts from this memory.
        have here : drawnAt frame line - state.1.clock ≤ (Action.tick dots).dots :=
          Nat.sub_le_iff_le_add'.2 upto
        rw [drawn frame line after, during, if_pos here]
        exact Nat.le_trans upto (Nat.add_le_add_left (Nat.le_add_right _ _) _)
    refine ih first fun frame line after upto => ?_
    rw [clock_perform] at after upto ⊢
    have beyond : ¬ drawnAt frame line - state.1.clock ≤ action.dots := by omega
    rw [drawn frame line (by omega) (by omega), during, if_neg beyond, Nat.sub_sub]

/-! ## The picture shown -/

/-- The frames that a new display draws in a history, and its first two, which are blank. -/
def filmOf (actions : List Action) (memory : μ) : Nat → Fin screenHeight → Row
  | frame + 2, line => ((Scanline.render (.ofNat line.val)).run
      (during (drawnAt frame line) actions (.initial, memory))).1
  | _, _ => Row.blank

omit [PlainMemory μ] in
theorem exposed_initial (actions : List Action) (memory : μ) :
    Exposed (filmOf actions memory) Raster.initial :=
  ⟨fun line => Vector.getElem_replicate line.isLt, fun line => Vector.getElem_replicate line.isLt⟩

/-- After a history of a new display the last frame completed is shown. -/
theorem front_replay (actions : List Action) (memory : μ) (line : Fin screenHeight) :
    (replay actions (.initial, memory)).1.front.get line =
      filmOf actions memory ((replay actions (.initial, memory)).1.frames + 1) line := by
  have start : (initial : Ppu).clock = 0 := rfl
  have exposed : Exposed (filmOf actions memory)
      (replay actions (.initial, memory)).1.toRaster := by
    refine exposed_replay (exposed_initial actions memory) fun frame line _ _ => ?_
    rw [filmOf, start, Nat.sub_zero]
  exact exposed.front line

/-- A tick that completes no frame shows the same picture as before. -/
theorem front_tick_of_not_completed (ppu : Ppu) (dots : Nat) (memory : μ)
    (incomplete : ((ppu.tick dots).run memory).1.1 = false) :
    ((ppu.tick dots).run memory).1.2.front = ppu.front := by
  rw [run_tick_eq_elapse] at incomplete ⊢
  rw [outcome_completed, decide_eq_false_iff_not, Nat.not_lt] at incomplete
  rw [outcome_ppu]
  have frames := Nat.le_antisymm incomplete (frames_le_elapse ppu.toRaster (ppu.dots + dots) memory)
  -- Both pictures are the same frame of a film.
  obtain ⟨film, exposed, ahead⟩ := exists_exposed ppu.toRaster fun line =>
    ((Scanline.render (.ofNat line.val)).run memory).1
  have inside := Nat.lt_add_of_pos_right (n := ppu.toRaster.clock) ppu.beam.mode.dots_pos
  have after : Exposed film ((ppu.toRaster.elapse (ppu.dots + dots)).run memory).1.toRaster :=
    exposed.elapse inside fun frame line start _ => ahead frame line start
  refine Vector.ext fun line bound => ?_
  have same := after.front ⟨line, bound⟩
  rw [frames] at same
  exact same.trans (exposed.front ⟨line, bound⟩).symm

/-- Until a frame is completed the picture is blank. -/
theorem front_replay_of_none (actions : List Action) (memory : μ)
    (undrawn : (replay actions (.initial, memory)).1.frames = 0) :
    (replay actions (.initial, memory)).1.front = Frame.blank := by
  refine Vector.ext fun line bound => ?_
  have shown := front_replay actions memory ⟨line, bound⟩
  rw [undrawn] at shown
  exact shown.trans (Vector.getElem_replicate bound).symm

/-- After a tick that completes a frame, every line shows the memory as it stood when the tick began
in which the line's horizontal blank ended, in the last frame completed. -/
theorem front_tick_of_completed (actions : List Action) (dots : Nat) (memory : μ)
    (line : Fin screenHeight) {after : Ppu}
    (whole : (replay (actions ++ [.tick dots]) (.initial, memory)).1 = after)
    (drawn : 0 < after.frames) :
    ∃ before length rest,
      actions ++ [.tick dots] = before ++ .tick length :: rest ∧
      elapsed before < drawnAt (after.frames - 1) line ∧
      drawnAt (after.frames - 1) line ≤ elapsed before + length ∧
      after.front.get line =
        ((Scanline.render (.ofNat line.val)).run (replay before (.initial, memory)).2).1 := by
  obtain ⟨frame, frames⟩ := Nat.exists_eq_add_one_of_ne_zero (Nat.ne_of_gt drawn)
  have total : after.clock = elapsed (actions ++ [.tick dots]) := by
    have begun : (initial : Ppu).clock = 0 := rfl
    rw [← whole, clock_replay, begun, Nat.zero_add]
  have ended : drawnAt frame line ≤ elapsed (actions ++ [.tick dots]) := by
    rw [← total]
    exact (drawnAt_le_iff after.dots_lt).2 (.inl (by omega))
  have begun : 0 < drawnAt frame line := by
    rw [drawnAt_eq]
    exact Nat.succ_pos _
  obtain ⟨before, length, rest, parts, earlier, upto, seen⟩ :=
    exists_during (.initial, memory) begun ended
  have shown := front_replay (actions ++ [.tick dots]) memory line
  rw [whole, frames, filmOf, seen] at shown
  rw [frames, Nat.add_sub_cancel]
  exact ⟨before, length, rest, parts, earlier, upto, shown⟩

/-- A history of a new display, in any order of writes and ticks: the picture is blank as long as no
frame is completed, and a tick that completes none leaves it as it was. After a tick that completes
one, every line shows the memory as it stood when the tick began in which the line's horizontal
blank ended, in the last frame completed. The answer of a tick is the one that
`BoundedDisplay.outcome_tick` collects from its positions. -/
theorem frame_replay (actions : List Action) (memory : μ) :
    let start : Ppu × μ := (.initial, memory)
    let after := replay actions start
    (after.1.frames = 0 → after.1.front = Frame.blank) ∧
    ∀ dots,
      let next := (after.1.tick dots).run after.2
      (next.1.1 = false → next.1.2.front = after.1.front) ∧
      (next.1.1 = true → ∀ line : Fin screenHeight, ∃ before length rest,
        actions ++ [.tick dots] = before ++ .tick length :: rest ∧
        elapsed before < drawnAt (next.1.2.frames - 1) line ∧
        drawnAt (next.1.2.frames - 1) line ≤ elapsed before + length ∧
        next.1.2.front.get line =
          ((Scanline.render (.ofNat line.val)).run (replay before start).2).1) := by
  intro start after
  refine ⟨front_replay_of_none actions memory, fun dots => ⟨?_, fun completed line => ?_⟩⟩
  · exact front_tick_of_not_completed after.1 dots after.2
  · have grown := (completed_tick after.1 dots after.2).1 completed
    have whole : (replay (actions ++ [.tick dots]) start).1 =
        ((after.1.tick dots).run after.2).1.2 := by
      rw [replay_append_tick, settled_ppu]
    exact front_tick_of_completed actions dots memory line whole (Nat.zero_lt_of_lt grown)

end DotMatrix.Ppu
