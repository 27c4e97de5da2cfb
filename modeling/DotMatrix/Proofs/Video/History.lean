import DotMatrix.Machine.Board
import DotMatrix.Proofs.Video.Clock

/-!
# Histories of a display

A history is what happens to a display and its memory from the outside, in order: bytes are written
to the memory, and dots pass. The dots alone decide where the display stands.

Results:
1. `clock_replay`: after a history the clock has moved by the dots of the history.
2. `position_replay`: the position, in closed form, after any history of a display that is new or
   was reset.
-/

namespace DotMatrix.Ppu

/-! ## Histories -/

/-- Something that happens to a display and its memory. -/
inductive Action where
  /-- A byte is written to the memory. -/
  | write (address : UInt16) (value : UInt8)
  /-- Dots pass. -/
  | tick (dots : Nat)
deriving DecidableEq, Repr

/-- The dots that pass with an action. -/
def Action.dots : Action → Nat
  | .write _ _ => 0
  | .tick dots => dots

/-- The dots that pass in a history. -/
def elapsed : List Action → Nat
  | [] => 0
  | action :: actions => action.dots + elapsed actions

section

variable {μ : Type}

/-- The display and its memory after a tick, apart from what the tick said. -/
def settled (result : (Bool × Ppu) × μ) : Ppu × μ := (result.1.2, result.2)

@[simp] theorem settled_ppu (result : (Bool × Ppu) × μ) : (settled result).1 = result.1.2 := rfl

variable [Memory μ]

/-- A display and its memory after an action. -/
def perform (state : Ppu × μ) : Action → Ppu × μ
  | .write address value => (state.1, Memory.store state.2 address value)
  | .tick dots => settled ((state.1.tick dots).run state.2)

/-- A display and its memory after a history. -/
def replay (actions : List Action) (state : Ppu × μ) : Ppu × μ := actions.foldl perform state

theorem replay_append_tick (actions : List Action) (dots : Nat) (state : Ppu × μ) :
    replay (actions ++ [.tick dots]) state =
      settled (((replay actions state).1.tick dots).run (replay actions state).2) := by
  rw [replay, List.foldl_append, List.foldl_cons, List.foldl_nil, perform, replay]

theorem clock_perform (state : Ppu × μ) (action : Action) :
    (perform state action).1.clock = state.1.clock + action.dots := by
  cases action with
  | write address value => simp only [perform, Action.dots, Nat.add_zero]
  | tick dots => rw [perform, settled_ppu, clock_tick, Action.dots]

theorem clock_replay (actions : List Action) (state : Ppu × μ) :
    (replay actions state).1.clock = state.1.clock + elapsed actions := by
  induction actions generalizing state with
  | nil => simp [replay, elapsed]
  | cons action actions ih =>
    simp only [replay, List.foldl_cons, elapsed] at ih ⊢
    rw [ih, clock_perform, Nat.add_assoc]

end

/-! ## The position in closed form -/

/-- The mode at a dot of a frame and the dots spent in it, the vertical blank counted by lines. -/
def modeAt (place : Nat) : Mode × Nat :=
  let inLine := place % 456
  if place < 144 * 456 then
    if inLine < 80 then (.search, inLine)
    else if inLine < 252 then (.transfer, inLine - 80)
    else (.horizontalBlank, inLine - 252)
  else
    (.verticalBlank, inLine)

theorem mode_eq {beam : Beam} {dots : Nat} (inside : dots < beam.mode.dots) :
    (beam.mode, dots) = modeAt (beam.offset + dots) := by
  rcases beam with ⟨⟨line, bound⟩, stage⟩ | ⟨line, bound⟩
  · have visible : line < 144 := bound
    cases stage <;> simp only [Beam.mode, Mode.dots] at inside
    · show (Mode.search, dots) = modeAt (456 * line + 0 + dots)
      have inLine : (456 * line + 0 + dots) % 456 = dots := by omega
      unfold modeAt
      rw [if_pos (by omega), inLine, if_pos inside]
    · show (Mode.transfer, dots) = modeAt (456 * line + 80 + dots)
      have inLine : (456 * line + 80 + dots) % 456 = 80 + dots := by omega
      unfold modeAt
      rw [if_pos (by omega), inLine, if_neg (by omega), if_pos (by omega), Nat.add_sub_cancel_left]
    · show (Mode.horizontalBlank, dots) = modeAt (456 * line + 252 + dots)
      have inLine : (456 * line + 252 + dots) % 456 = 252 + dots := by omega
      unfold modeAt
      rw [if_pos (by omega), inLine, if_neg (by omega), if_neg (by omega), Nat.add_sub_cancel_left]
  · simp only [Beam.mode, Mode.dots] at inside
    show (Mode.verticalBlank, dots) = modeAt (456 * (144 + line) + dots)
    have inLine : (456 * (144 + line) + dots) % 456 = dots := by omega
    unfold modeAt
    rw [if_neg (by omega), inLine]

/-- After any history of a new display, or one that was reset, the frames, the line, the mode and the
dots spent in it follow from the number of dots that have passed; what the memory holds, or what was
written to it, has no part in it. A tick says whether it completed a frame; so do, taken together, the
skipped frames and the positions that it passes (`BoundedDisplay.outcome_tick`). -/
theorem position_replay {μ : Type} [Memory μ] (actions : List Action) (memory : μ) :
    let after := replay actions (.initial, memory)
    let place := elapsed actions % 70224
    after.1.frames = elapsed actions / 70224 ∧
    after.1.beam.line = place / 456 ∧
    (after.1.beam.mode, after.1.dots) = modeAt place ∧
    after.1.dots < after.1.beam.mode.dots ∧
    after.1.beam.line ≤ 153 ∧
    (∀ dots,
      let next := (after.1.tick dots).run after.2
      (next.1.1 = true ↔ after.1.frames < next.1.2.frames) ∧
      next.1.2.frames = (elapsed actions + dots) / 70224) ∧
    ∀ board : Board, board.reset.ppu = .initial := by
  intro after place
  have total : after.1.clock = elapsed actions := by
    have start : (initial : Ppu).clock = 0 := rfl
    rw [clock_replay, start, Nat.zero_add]
  have here : after.1.beam.offset + after.1.dots = place := by
    rw [place_eq, total]
    rfl
  refine ⟨?_, ?_, ?_, after.1.dots_lt, Nat.le_of_lt_succ after.1.beam.line_lt, ?_, fun _ => rfl⟩
  · rw [frames_eq, total, frameDots_eq]
  · rw [Beam.line_eq after.1.dots_lt, here]
  · rw [mode_eq after.1.dots_lt, here]
  · intro dots
    exact ⟨completed_tick after.1 dots after.2, by rw [frames_eq, clock_tick, total, frameDots_eq]⟩

end DotMatrix.Ppu
