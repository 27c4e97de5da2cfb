import DotMatrix.Video.Ppu

/-!
# The display's clock

Every position of the beam begins a fixed number of dots after the start of its frame, and the
positions follow one another without gap or overlap. So the frames completed, the position and the
dots spent there are one number, the dots since the display was switched on.

Results:
1. `clock_advance`: passing to the next position takes exactly the dots of the position.
2. `run_elapse_invariant`: what each pass keeps holds when dots have passed.
3. `run_elapse_shows`, `run_elapse_gathers`: what the passed positions leave behind, where each sets
   a value or where each adds to it.
4. `clock_tick`: a tick moves the clock by its dots, the skipped frames included.
-/

namespace DotMatrix

theorem frameDots_eq : frameDots = 70224 := rfl

/-! ## Where positions begin -/

namespace Stage

/-- The dots of a line before a stage. -/
def offset : Stage → Nat
  | .search => 0
  | .transfer => 80
  | .horizontalBlank => 252

end Stage

namespace Beam

/-- The dots of a frame before a position. -/
def offset : Beam → Nat
  | .visible line stage => 456 * line + stage.offset
  | .blank line => 456 * (144 + line)

/-- Whether the next position is the first of another frame. -/
def endsFrame : Beam → Bool
  | .visible _ _ => false
  | .blank line => line.val + 1 = blankLines

theorem offset_add_dots_le (beam : Beam) : beam.offset + beam.mode.dots ≤ 70224 := by
  rcases beam with ⟨⟨line, bound⟩, stage⟩ | ⟨line, bound⟩
  · cases stage <;> simp only [offset, Stage.offset, mode, Mode.dots, screenHeight] at bound ⊢ <;>
      omega
  · simp only [offset, mode, Mode.dots, blankLines] at bound ⊢
    omega

/-- Positions do not overlap. -/
theorem offset_add_dots_le_of_lt {beam other : Beam} (before : beam.offset < other.offset) :
    beam.offset + beam.mode.dots ≤ other.offset := by
  rcases beam with ⟨⟨line, bound⟩, stage⟩ | ⟨line, bound⟩ <;>
    rcases other with ⟨⟨line', bound'⟩, stage'⟩ | ⟨line', bound'⟩ <;>
    simp only [screenHeight, blankLines] at bound bound' <;>
    simp only [offset, mode] at before ⊢
  · cases stage <;> cases stage' <;> simp only [Stage.offset, Mode.dots] at before ⊢ <;> omega
  · cases stage <;> simp only [Stage.offset, Mode.dots] <;> omega
  · cases stage' <;> simp only [Stage.offset] at before <;> omega
  · simp only [Mode.dots]
    omega

theorem eq_of_offset_eq {beam other : Beam} (same : beam.offset = other.offset) :
    beam = other := by
  rcases beam with ⟨⟨line, bound⟩, stage⟩ | ⟨line, bound⟩ <;>
    rcases other with ⟨⟨line', bound'⟩, stage'⟩ | ⟨line', bound'⟩ <;>
    simp only [screenHeight, blankLines] at bound bound' <;>
    simp only [offset] at same
  · obtain rfl : line = line' := by
      cases stage <;> cases stage' <;> simp only [Stage.offset] at same <;> omega
    cases stage <;> cases stage' <;> simp only [Stage.offset] at same <;> first | rfl | omega
  · cases stage <;> simp only [Stage.offset] at same <;> omega
  · cases stage' <;> simp only [Stage.offset] at same <;> omega
  · obtain rfl : line = line' := by omega
    rfl

/-- A line begins every 456 dots. -/
theorem line_eq {beam : Beam} {dots : Nat} (inside : dots < beam.mode.dots) :
    beam.line = (beam.offset + dots) / 456 := by
  rcases beam with ⟨line, stage⟩ | line
  · cases stage <;> simp only [mode, Mode.dots] at inside <;>
      simp only [Beam.line, offset, Stage.offset] <;> omega
  · simp only [mode, Mode.dots] at inside
    simp only [Beam.line, offset, screenHeight]
    omega

/-- The next position begins where this one ends; after the last one a frame is full. -/
theorem offset_next (beam : Beam) :
    (if beam.endsFrame then frameDots else 0) + beam.next.offset =
      beam.offset + beam.mode.dots := by
  rcases beam with ⟨⟨line, bound⟩, stage⟩ | ⟨line, bound⟩
  · cases stage with
    | search => simp [next, offset, Stage.offset, endsFrame, mode, Mode.dots]
    | transfer => simp [next, offset, Stage.offset, endsFrame, mode, Mode.dots]
    | horizontalBlank =>
      by_cases more : line + 1 < screenHeight
      · simp [next, afterVisible, more, offset, Stage.offset, endsFrame, mode, Mode.dots]
        omega
      · obtain rfl : line = 143 := by simp only [screenHeight] at bound more; omega
        simp [next, afterVisible, offset, Stage.offset, endsFrame, mode, Mode.dots]
  · by_cases more : line + 1 < blankLines
    · simp [next, afterBlank, more, offset, endsFrame, mode, Mode.dots, Nat.ne_of_lt more]
      omega
    · obtain rfl : line = 9 := by simp only [blankLines] at bound more; omega
      simp [next, afterBlank, start, offset, Stage.offset, endsFrame, mode, Mode.dots,
        frameDots_eq]

/-- The clock when a position of a frame begins. -/
def beginsAt (beam : Beam) (frame : Nat) : Nat := frame * frameDots + beam.offset

/-- The clock when a position of a frame is over. -/
def endsAt (beam : Beam) (frame : Nat) : Nat := beam.beginsAt frame + beam.mode.dots

theorem eq_of_beginsAt_eq {beam other : Beam} {frame frame' : Nat}
    (same : beam.beginsAt frame = other.beginsAt frame') : frame = frame' ∧ beam = other := by
  have inFrame := beam.offset_add_dots_le
  have inFrame' := other.offset_add_dots_le
  have pos := beam.mode.dots_pos
  have pos' := other.mode.dots_pos
  simp only [beginsAt, frameDots_eq] at same
  obtain rfl : frame = frame' := by omega
  exact ⟨rfl, eq_of_offset_eq (by omega)⟩

/-- A position that begins before another is over by then. -/
theorem endsAt_le_of_lt {beam other : Beam} {frame frame' : Nat}
    (before : beam.beginsAt frame < other.beginsAt frame') :
    beam.endsAt frame ≤ other.beginsAt frame' := by
  have inFrame := beam.offset_add_dots_le
  have inFrame' := other.offset_add_dots_le
  have pos := other.mode.dots_pos
  simp only [endsAt, beginsAt, frameDots_eq] at before ⊢
  rcases Nat.lt_trichotomy frame frame' with earlier | same | later
  · omega
  · have earlier : beam.offset < other.offset := by omega
    have := offset_add_dots_le_of_lt earlier
    omega
  · omega

/-- A position is passed in a time: it ends after `start`, and by `now`. -/
def Passed (beam : Beam) (start now : Nat) : Prop :=
  ∃ frame, start < beam.endsAt frame ∧ beam.endsAt frame ≤ now

theorem not_passed_of_le {beam : Beam} {start now : Nat} (le : now ≤ start) :
    ¬ beam.Passed start now :=
  fun ⟨_, after, by_now⟩ => Nat.not_lt_of_le (Nat.le_trans by_now le) after

/-- Every position is passed in the time of a frame. -/
theorem passed_of_frameDots_le (beam : Beam) {start now : Nat} (long : start + frameDots ≤ now) :
    beam.Passed start now := by
  have inFrame := beam.offset_add_dots_le
  simp only [Passed, endsAt, beginsAt, frameDots_eq] at long ⊢
  rcases Nat.lt_or_ge start (beam.offset + beam.mode.dots) with early | late
  · exact ⟨0, by omega, by omega⟩
  · refine ⟨(start - (beam.offset + beam.mode.dots)) / 70224 + 1, ?_, ?_⟩ <;> omega

/-- No position ends while another one lasts. -/
theorem passed_endsAt {beam other : Beam} {frame start : Nat} (inside : start < beam.endsAt frame) :
    other.Passed start (beam.endsAt frame) ↔
      other.Passed start (beam.beginsAt frame) ∨ other = beam := by
  have pos := beam.mode.dots_pos
  constructor
  · rintro ⟨frame', after, by_now⟩
    rcases Nat.lt_trichotomy (other.beginsAt frame') (beam.beginsAt frame)
      with earlier | same | later
    · exact .inl ⟨frame', after, endsAt_le_of_lt earlier⟩
    · exact .inr (eq_of_beginsAt_eq same).2
    · have := endsAt_le_of_lt later
      have pos' := other.mode.dots_pos
      simp only [endsAt] at by_now this
      omega
  · rintro (⟨frame', after, by_now⟩ | rfl)
    · exact ⟨frame', after, by simp only [endsAt] at by_now ⊢; omega⟩
    · exact ⟨frame, inside, Nat.le_refl _⟩

/-- Between the beginning of a position and its end nothing more is passed. -/
theorem passed_iff_of_inside {beam other : Beam} {frame start now : Nat}
    (begun : beam.beginsAt frame ≤ now) (inside : now < beam.endsAt frame) :
    other.Passed start now ↔ other.Passed start (beam.beginsAt frame) := by
  constructor
  · intro passed
    obtain ⟨frame', after, by_now⟩ := passed
    rcases Nat.lt_trichotomy (other.beginsAt frame') (beam.beginsAt frame)
      with earlier | same | later
    · exact ⟨frame', after, endsAt_le_of_lt earlier⟩
    · obtain ⟨rfl, rfl⟩ := eq_of_beginsAt_eq same
      exact absurd inside (Nat.not_lt_of_le by_now)
    · have ended := endsAt_le_of_lt later
      simp only [endsAt] at by_now ended inside
      omega
  · rintro ⟨frame', after, by_now⟩
    exact ⟨frame', after, Nat.le_trans by_now begun⟩

end Beam

/-! ## Passing positions -/

namespace Raster

variable {μ : Type} [Memory μ]

/-- The dots from the start of the first frame to the start of the position. -/
def clock (raster : Raster) : Nat := raster.beam.beginsAt raster.frames

theorem frames_advance (raster : Raster) (memory : μ) :
    (raster.advance.run memory).1.frames =
      raster.frames + (if raster.beam.endsFrame then 1 else 0) := by
  obtain ⟨beam, back, front, frames⟩ := raster
  rcases beam with ⟨line, stage⟩ | line
  · cases stage with
    | search => simp [advance, Beam.endsFrame]
    | transfer => simp [advance, Beam.endsFrame]
    | horizontalBlank =>
      simp only [advance, finishLine, Transaction.run_bind]
      split <;> simp [Beam.endsFrame]
  · have bound := line.isLt
    by_cases more : line.val + 1 < blankLines
    · simp [advance, finishBlankLine, more, Beam.endsFrame, Nat.ne_of_lt more]
    · have last : line.val + 1 = blankLines := by omega
      simp [advance, finishBlankLine, present, Beam.endsFrame, last]

/-- Passing to the next position takes the dots of the position. -/
theorem clock_advance (raster : Raster) (memory : μ) :
    (raster.advance.run memory).1.clock = raster.clock + raster.beam.mode.dots := by
  have next := raster.beam.offset_next
  simp only [clock, Beam.beginsAt, beam_advance, frames_advance, frameDots_eq] at next ⊢
  by_cases ends : raster.beam.endsFrame
  · simp only [ends, if_true] at next ⊢
    omega
  · simp only [ends, Bool.false_eq_true, if_false] at next ⊢
    omega

/-- Passing to the next position passes this position and no other. -/
theorem passed_advance {raster : Raster} {memory : μ} {beam : Beam} {start : Nat}
    (inside : start < raster.clock + raster.beam.mode.dots) :
    beam.Passed start (raster.advance.run memory).1.clock ↔
      beam.Passed start raster.clock ∨ beam = raster.beam := by
  rw [clock_advance]
  exact Beam.passed_endsAt inside

/-! ## Letting dots pass -/

theorem run_elapse_of_le (raster : Raster) {dots : Nat} (memory : μ)
    (enough : raster.beam.mode.dots ≤ dots) :
    (raster.elapse dots).run memory =
      ((raster.advance.run memory).1.elapse (dots - raster.beam.mode.dots)).run
        (raster.advance.run memory).2 := by
  rw [elapse, dif_pos enough, Transaction.run_bind]

theorem run_elapse_of_lt (raster : Raster) {dots : Nat} (memory : μ)
    (few : dots < raster.beam.mode.dots) :
    (raster.elapse dots).run memory = ({ raster with dots, dots_lt := few }, memory) := by
  rw [elapse, dif_neg (Nat.not_le_of_lt few), Transaction.run_pure]

/-- What is true of the raster, the dots that are left and the memory, and is kept by every pass to
the next position, is true in the end. -/
theorem run_elapse_invariant (invariant : Raster → Nat → μ → Prop)
    (step : ∀ raster dots memory, raster.beam.mode.dots ≤ dots → invariant raster dots memory →
      invariant (raster.advance.run memory).1 (dots - raster.beam.mode.dots)
        (raster.advance.run memory).2)
    (raster : Raster) (dots : Nat) (memory : μ) (start : invariant raster dots memory) :
    invariant ((raster.elapse dots).run memory).1.toRaster ((raster.elapse dots).run memory).1.dots
      ((raster.elapse dots).run memory).2 := by
  induction dots using Nat.strongRecOn generalizing raster memory with
  | ind dots ih =>
    rcases Nat.lt_or_ge dots raster.beam.mode.dots with few | enough
    · rw [run_elapse_of_lt raster memory few]
      exact start
    · rw [run_elapse_of_le raster memory enough]
      have pos := raster.beam.mode.dots_pos
      exact ih _ (by omega) _ _ (step raster dots memory enough start)

/-- Letting dots pass moves the clock by them. -/
theorem clock_elapse (raster : Raster) (dots : Nat) (memory : μ) :
    let after := (raster.elapse dots).run memory
    after.1.toRaster.clock + after.1.dots = raster.clock + dots :=
  run_elapse_invariant (fun raster' dots' _ => raster'.clock + dots' = raster.clock + dots)
    (fun raster' dots' memory' enough total => by rw [clock_advance]; omega)
    raster dots memory rfl

theorem passed_elapse {beam : Beam} {start : Nat} (raster : Raster) (dots : Nat) (memory : μ) :
    beam.Passed start ((raster.elapse dots).run memory).1.toRaster.clock ↔
      beam.Passed start (raster.clock + dots) := by
  have total := raster.clock_elapse dots memory
  have left := ((raster.elapse dots).run memory).1.dots_lt
  refine (Beam.passed_iff_of_inside (Nat.le_of_add_right_le (Nat.le_of_eq total)) ?_).symm
  rw [← total]
  exact Nat.add_lt_add_left left _

/-- Something that is set at some positions, to a value that the next position has, and left alone at
the others, through which the value stays the same: it has the value of the position reached if one
of those positions was passed. -/
theorem run_elapse_shows {α : Type} (held : μ → Prop) (source : μ → α) (sets : Beam → Prop)
    (value : Beam → α)
    (holds : ∀ (raster : Raster) memory, held memory → held (raster.advance.run memory).2)
    (shows : ∀ (raster : Raster) memory, held memory → sets raster.beam →
      source (raster.advance.run memory).2 = value raster.beam.next)
    (keeps : ∀ (raster : Raster) memory, held memory → ¬ sets raster.beam →
      source (raster.advance.run memory).2 = source memory)
    (steady : ∀ beam, ¬ sets beam → value beam.next = value beam)
    {raster : Raster} {memory : μ} {start : Nat} (dots : Nat) (start_le : raster.clock ≤ start)
    (inside : start < raster.clock + raster.beam.mode.dots) (hold : held memory) :
    let after := (raster.elapse dots).run memory
    ((∃ beam, sets beam ∧ beam.Passed start (raster.clock + dots)) →
      source after.2 = value after.1.beam) ∧
    ((∀ beam, sets beam → ¬ beam.Passed start (raster.clock + dots)) →
      source after.2 = source memory) := by
  have final := run_elapse_invariant
    (fun raster' _ memory' => held memory' ∧ start < raster'.clock + raster'.beam.mode.dots ∧
      ((∃ beam, sets beam ∧ beam.Passed start raster'.clock) →
        source memory' = value raster'.beam) ∧
      ((∀ beam, sets beam → ¬ beam.Passed start raster'.clock) → source memory' = source memory))
    (fun raster' dots' memory' enough ⟨hold', inside', shown, kept⟩ => by
      refine ⟨holds _ _ hold', ?_, ?_, ?_⟩
      · rw [clock_advance]
        exact Nat.lt_of_lt_of_le inside' (Nat.le_add_right _ _)
      · rintro ⟨beam, set, passed⟩
        rw [beam_advance]
        by_cases here : sets raster'.beam
        · exact shows _ _ hold' here
        · rw [keeps _ _ hold' here, steady _ here]
          rcases (passed_advance inside').1 passed with earlier | rfl
          · exact shown ⟨beam, set, earlier⟩
          · exact absurd set here
      · intro spared
        have here : ¬ sets raster'.beam := fun set =>
          spared _ set ((passed_advance inside').2 (.inr rfl))
        rw [keeps _ _ hold' here]
        exact kept fun beam set earlier =>
          spared beam set ((passed_advance inside').2 (.inl earlier)))
    raster dots memory
    -- Nothing was passed between the beginning of the position and the start.
    ⟨hold, inside, fun ⟨_, _, passed⟩ => absurd passed (Beam.not_passed_of_le start_le),
      fun _ => rfl⟩
  simp only [passed_elapse] at final
  exact final.2.2

/-- Something that becomes true at some positions and never false is true in the end if it was true
at first or one of those positions was passed. -/
theorem run_elapse_gathers (held source : μ → Prop) (sets : Beam → Prop)
    (holds : ∀ (raster : Raster) memory, held memory → held (raster.advance.run memory).2)
    (gathers : ∀ (raster : Raster) memory, held memory →
      (source (raster.advance.run memory).2 ↔ source memory ∨ sets raster.beam))
    {raster : Raster} {memory : μ} {start : Nat} (dots : Nat) (start_le : raster.clock ≤ start)
    (inside : start < raster.clock + raster.beam.mode.dots) (hold : held memory) :
    let after := (raster.elapse dots).run memory
    source after.2 ↔
      source memory ∨ ∃ beam, sets beam ∧ beam.Passed start (raster.clock + dots) := by
  have final := run_elapse_invariant
    (fun raster' _ memory' => held memory' ∧ start < raster'.clock + raster'.beam.mode.dots ∧
      (source memory' ↔ source memory ∨ ∃ beam, sets beam ∧ beam.Passed start raster'.clock))
    (fun raster' dots' memory' enough ⟨hold', inside', gathered⟩ => by
      refine ⟨holds _ _ hold', ?_, ?_⟩
      · rw [clock_advance]
        exact Nat.lt_of_lt_of_le inside' (Nat.le_add_right _ _)
      · rw [gathers _ _ hold', gathered, or_assoc]
        refine or_congr_right ⟨?_, ?_⟩
        · rintro (⟨beam, set, passed⟩ | here)
          · exact ⟨beam, set, (passed_advance inside').2 (.inl passed)⟩
          · exact ⟨_, here, (passed_advance inside').2 (.inr rfl)⟩
        · rintro ⟨beam, set, passed⟩
          rcases (passed_advance inside').1 passed with earlier | rfl
          · exact .inl ⟨beam, set, earlier⟩
          · exact .inr set)
    raster dots memory
    ⟨hold, inside, by
      refine ⟨.inl, ?_⟩
      rintro (first | ⟨_, _, passed⟩)
      · exact first
      · exact absurd passed (Beam.not_passed_of_le start_le)⟩
  simp only [passed_elapse] at final
  exact final.2.2

end Raster

/-! ## Ticks -/

namespace Ppu

/-- The dots since the start of the first frame. -/
def clock (ppu : Ppu) : Nat := ppu.toRaster.clock + ppu.dots

theorem offset_add_dots_lt (ppu : Ppu) : ppu.beam.offset + ppu.dots < frameDots :=
  Nat.lt_of_lt_of_le (Nat.add_lt_add_left ppu.dots_lt _) ppu.beam.offset_add_dots_le

theorem frames_eq (ppu : Ppu) : ppu.frames = ppu.clock / frameDots := by
  have inFrame := ppu.offset_add_dots_lt
  simp only [clock, Raster.clock, Beam.beginsAt, frameDots_eq] at inFrame ⊢
  omega

theorem place_eq (ppu : Ppu) : ppu.beam.offset + ppu.dots = ppu.clock % frameDots := by
  have inFrame := ppu.offset_add_dots_lt
  simp only [clock, Raster.clock, Beam.beginsAt, frameDots_eq] at inFrame ⊢
  omega

/-- The clock says where the display stands. -/
theorem eq_of_clock_eq {ppu other : Ppu} (same : ppu.clock = other.clock) :
    ppu.frames = other.frames ∧ ppu.beam = other.beam ∧ ppu.dots = other.dots := by
  have frames : ppu.frames = other.frames := by rw [frames_eq, frames_eq, same]
  have place : ppu.beam.offset + ppu.dots = other.beam.offset + other.dots := by
    rw [place_eq, place_eq, same]
  have inside := ppu.dots_lt
  have inside' := other.dots_lt
  have offsets : ppu.beam.offset = other.beam.offset := by
    rcases Nat.lt_trichotomy ppu.beam.offset other.beam.offset with before | same | after
    · have := Beam.offset_add_dots_le_of_lt before
      omega
    · exact same
    · have := Beam.offset_add_dots_le_of_lt after
      omega
  exact ⟨frames, Beam.eq_of_offset_eq offsets, by omega⟩

variable {μ : Type}

/-- What a tick returns when dots have passed: whether there are more frames than before. -/
def outcome (frames : Nat) (after : Ppu × μ) : (Bool × Ppu) × μ :=
  ((decide (frames < after.1.frames), after.1), after.2)

@[simp] theorem outcome_completed (frames : Nat) (after : Ppu × μ) :
    (outcome frames after).1.1 = decide (frames < after.1.frames) := rfl

@[simp] theorem outcome_ppu (frames : Nat) (after : Ppu × μ) :
    (outcome frames after).1.2 = after.1 := rfl

@[simp] theorem outcome_memory (frames : Nat) (after : Ppu × μ) :
    (outcome frames after).2 = after.2 := rfl

variable [Memory μ]

/-- The whole frames that a tick counts and does not draw. -/
def skipped (dots : Nat) : Nat := dots / frameDots - 2

theorem skipped_mul_le (dots : Nat) : skipped dots * frameDots ≤ dots := by
  have whole := Nat.div_mul_le_self dots frameDots
  refine Nat.le_trans (Nat.mul_le_mul_right _ ?_) whole
  exact Nat.sub_le _ _

/-- A tick adds the skipped frames to the count and lets the other dots pass. -/
theorem run_tick (ppu : Ppu) (dots : Nat) (memory : μ) :
    (ppu.tick dots).run memory =
      outcome ppu.frames
        ((Raster.elapse { ppu.toRaster with frames := ppu.frames + skipped dots }
          (ppu.dots + (dots - skipped dots * frameDots))).run memory) := by
  unfold tick
  rw [Transaction.run_bind]
  rfl

/-- A tick says whether it completed a frame. -/
theorem completed_tick (ppu : Ppu) (dots : Nat) (memory : μ) :
    ((ppu.tick dots).run memory).1.1 = true ↔
      ppu.frames < ((ppu.tick dots).run memory).1.2.frames := by
  rw [run_tick, outcome_completed, outcome_ppu]
  exact decide_eq_true_iff

/-- A tick moves the clock by its dots. -/
theorem clock_tick (ppu : Ppu) (dots : Nat) (memory : μ) :
    ((ppu.tick dots).run memory).1.2.clock = ppu.clock + dots := by
  have whole := skipped_mul_le dots
  rw [run_tick, outcome_ppu, clock, Raster.clock_elapse]
  simp only [clock, Raster.clock, Beam.beginsAt, Nat.add_mul]
  omega

end Ppu

end DotMatrix
