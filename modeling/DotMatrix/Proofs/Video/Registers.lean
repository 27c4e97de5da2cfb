import DotMatrix.Proofs.Video.Clock
import DotMatrix.Proofs.Video.Signals

/-!
# The display's registers over time

What the line, the status and the interrupt requests hold after any number of dots, in terms of the
positions that were passed.

Results:
1. `Undisturbed.elapse`: everything but these three registers stays, and the choice of interrupts in
   the status; so what a line shows does not change either (`Undisturbed.render_eq`).
2. `line_elapse`, `mode_elapse`, `coincidence_elapse`, `requests_elapse`: the parts, one by one.
3. `shows_elapse`, `Shows.unique`: after a frame's time the memory follows from what it was and the
   position reached.
-/

namespace DotMatrix

open Memory HardwareRegister

/-! ## What stays -/

theorem IsSource.not_signal {address : UInt16} (source : IsSource address) :
    ¬ IsSignal address := by
  unfold IsSignal
  cases source with
  | register member =>
    simp only [List.mem_cons, List.not_mem_nil, or_false] at member
    rcases member with rfl | rfl | rfl | rfl | rfl <;> decide
  | cell inside =>
    rintro (rfl | rfl | rfl) <;> exact absurd inside.2 (by decide)
  | tileByte inside =>
    rintro (rfl | rfl | rfl) <;> exact absurd inside.2 (by decide)

/-- A memory differs from another in nothing but what the display writes. -/
structure Undisturbed {μ : Type} [Memory μ] (origin memory : μ) : Prop where
  other : ∀ address, ¬ IsSignal address → load memory address = load origin address
  choice : DisplayStatus.choice (load memory displayStatus) =
    DisplayStatus.choice (load origin displayStatus)

namespace Undisturbed

variable {μ : Type} [Memory μ] {origin memory : μ}

theorem refl (memory : μ) : Undisturbed memory memory := ⟨fun _ _ => rfl, rfl⟩

theorem lineCompare_eq (same : Undisturbed origin memory) :
    load memory lineCompare = load origin lineCompare :=
  same.other lineCompare (by unfold IsSignal; decide)

theorem asks_eq (same : Undisturbed origin memory) (number : UInt8) :
    DisplayStatus.asks (load memory displayStatus) (load memory lineCompare) number =
      DisplayStatus.asks (load origin displayStatus) (load origin lineCompare) number := by
  rw [← DisplayStatus.asks_choice, same.choice, DisplayStatus.asks_choice, same.lineCompare_eq]

theorem requests_eq (same : Undisturbed origin memory) (beam : Beam) :
    beam.requests (load memory lineCompare) (load memory displayStatus) =
      beam.requests (load origin lineCompare) (load origin displayStatus) := by
  unfold Beam.requests
  split
  · rw [same.asks_eq]
  · rfl
  · rfl

/-- What a line shows is not changed by what the display writes. -/
theorem render_eq (same : Undisturbed origin memory) (number : UInt8) :
    ((Scanline.render number).run memory).1 = ((Scanline.render number).run origin).1 := by
  have reads := Scanline.reads_render number
  rw [reads.run_eq memory origin fun address source => same.other address source.not_signal]

variable [PlainMemory μ]

theorem advance (same : Undisturbed origin memory) (raster : Raster) :
    Undisturbed origin (raster.advance.run memory).2 := by
  rw [Raster.memory_advance]
  refine ⟨fun address other => ?_, ?_⟩
  · rw [load_signal_of_not _ _ other, same.other address other]
  · rw [choice_signal, same.choice]

theorem elapse (same : Undisturbed origin memory) (raster : Raster) (dots : Nat) :
    Undisturbed origin ((raster.elapse dots).run memory).2 :=
  Raster.run_elapse_invariant (fun _ _ memory => Undisturbed origin memory)
    (fun raster' _ _ _ same' => same'.advance raster') raster dots memory same

end Undisturbed

/-! ## The registers after some time -/

namespace Beam

/-- The last line whose transfer has ended. -/
def lastSent : Beam → Nat
  | .visible line .horizontalBlank => line
  | .visible line _ => if line.val = 0 then 143 else line.val - 1
  | .blank _ => 143

theorem line_next_of_not {beam : Beam} (within : ¬ beam.endsLine) : beam.next.line = beam.line := by
  rcases beam with ⟨line, stage⟩ | line
  · cases stage with
    | search => rfl
    | transfer => rfl
    | horizontalBlank => exact absurd rfl within
  · exact absurd rfl within

theorem lastSent_next_transfer {beam : Beam} (sent : beam.mode = .transfer) :
    beam.next.lastSent = beam.line := by
  rcases beam with ⟨line, stage⟩ | line
  · cases stage with
    | search => exact Mode.noConfusion sent
    | transfer => rfl
    | horizontalBlank => exact Mode.noConfusion sent
  · exact Mode.noConfusion sent

theorem lastSent_next_of_ne {beam : Beam} (other : beam.mode ≠ .transfer) :
    beam.next.lastSent = beam.lastSent := by
  rcases beam with ⟨line, stage⟩ | line
  · cases stage with
    | search => rfl
    | transfer => exact absurd rfl other
    | horizontalBlank =>
      have bound := line.isLt
      by_cases more : line.val + 1 < screenHeight
      · simp [next, afterVisible, more, lastSent]
      · simp only [next, afterVisible, dif_neg more, lastSent]
        simp only [screenHeight] at bound more
        omega
  · simp only [next, afterBlank]
    split <;> rfl

end Beam

section

variable {μ : Type} [Memory μ] [PlainMemory μ] {raster : Raster} {start : Nat} (dots : Nat)
  (memory : μ) (start_le : raster.clock ≤ start)
  (inside : start < raster.clock + raster.beam.mode.dots)

include start_le inside

/-- The line register shows the line reached if a line has ended. -/
theorem line_elapse :
    let after := (raster.elapse dots).run memory
    ((∃ beam : Beam, beam.endsLine ∧ beam.Passed start (raster.clock + dots)) →
      load after.2 line = .ofNat after.1.beam.line) ∧
    ((∀ beam : Beam, beam.endsLine → ¬ beam.Passed start (raster.clock + dots)) →
      load after.2 line = load memory line) :=
  Raster.run_elapse_shows (fun _ => True) (load · line) (fun beam => beam.endsLine = true)
    (fun beam => .ofNat beam.line) (fun _ _ _ => trivial)
    (fun raster memory _ ends => by rw [raster.memory_advance, line_signal, if_pos ends])
    (fun raster memory _ within => by rw [raster.memory_advance, line_signal, if_neg within])
    (fun beam within => by rw [Beam.line_next_of_not within])
    dots start_le inside trivial

/-- The status shows the mode reached if the mode has changed. -/
theorem mode_elapse :
    let after := (raster.elapse dots).run memory
    ((∃ beam : Beam, beam.next.mode ≠ beam.mode ∧ beam.Passed start (raster.clock + dots)) →
      DisplayStatus.mode (load after.2 displayStatus) = after.1.beam.mode.bits) ∧
    ((∀ beam : Beam, beam.next.mode ≠ beam.mode → ¬ beam.Passed start (raster.clock + dots)) →
      DisplayStatus.mode (load after.2 displayStatus) =
        DisplayStatus.mode (load memory displayStatus)) :=
  Raster.run_elapse_shows (fun _ => True)
    (fun memory => DisplayStatus.mode (load memory displayStatus))
    (fun beam => beam.next.mode ≠ beam.mode) (fun beam => beam.mode.bits) (fun _ _ _ => trivial)
    (fun raster memory _ changes => by
      rw [raster.memory_advance, mode_signal, if_neg changes])
    (fun raster memory _ same => by
      rw [raster.memory_advance, mode_signal, if_pos (Classical.not_not.1 same)])
    (fun beam same => by rw [Classical.not_not.1 same])
    dots start_le inside trivial

/-- The coincidence bit compares the last line whose transfer has ended, if one has. -/
theorem coincidence_elapse :
    let after := (raster.elapse dots).run memory
    let compare := load memory lineCompare
    ((∃ beam : Beam, beam.mode = .transfer ∧ beam.Passed start (raster.clock + dots)) →
      DisplayStatus.coincidencePart (load after.2 displayStatus) =
        if compare = .ofNat after.1.beam.lastSent then 0x04 else 0) ∧
    ((∀ beam : Beam, beam.mode = .transfer → ¬ beam.Passed start (raster.clock + dots)) →
      DisplayStatus.coincidencePart (load after.2 displayStatus) =
        DisplayStatus.coincidencePart (load memory displayStatus)) :=
  Raster.run_elapse_shows (Undisturbed memory)
    (fun memory => DisplayStatus.coincidencePart (load memory displayStatus))
    (fun beam => beam.mode = .transfer)
    (fun beam => if load memory lineCompare = .ofNat beam.lastSent then 0x04 else 0)
    (fun raster _ same => same.advance raster)
    (fun raster memory same sent => by
      rw [raster.memory_advance, coincidence_signal, if_pos sent, same.lineCompare_eq,
        Beam.lastSent_next_transfer sent])
    (fun raster memory _ other => by rw [raster.memory_advance, coincidence_signal, if_neg other])
    (fun beam other => by rw [Beam.lastSent_next_of_ne other])
    dots start_le inside (.refl memory)

/-- An interrupt is requested if it was before or if a position that requests it was passed. -/
theorem requests_elapse (bit : Nat) :
    let after := (raster.elapse dots).run memory
    (load after.2 interruptRequests).toNat.testBit bit ↔
      (load memory interruptRequests).toNat.testBit bit ∨
      ∃ beam : Beam,
        (beam.requests (load memory lineCompare) (load memory displayStatus)).toNat.testBit bit ∧
        beam.Passed start (raster.clock + dots) :=
  Raster.run_elapse_gathers (Undisturbed memory)
    (fun memory => (load memory interruptRequests).toNat.testBit bit)
    (fun beam =>
      (beam.requests (load memory lineCompare) (load memory displayStatus)).toNat.testBit bit)
    (fun raster _ same => same.advance raster)
    (fun raster memory same => by
      rw [raster.memory_advance, requests_signal, same.requests_eq, UInt8.toNat_or, Nat.testBit_or,
        Bool.or_eq_true])
    dots start_le inside (.refl memory)

end

/-! ## After a frame's time -/

section

variable {μ : Type} [Memory μ]

/-- The memory, once every position was passed since it was `origin`, with the beam at `beam`. -/
structure Shows (origin : μ) (beam : Beam) (memory : μ) : Prop where
  undisturbed : Undisturbed origin memory
  line : load memory line = .ofNat beam.line
  mode : DisplayStatus.mode (load memory displayStatus) = beam.mode.bits
  coincidence : DisplayStatus.coincidencePart (load memory displayStatus) =
    if load origin lineCompare = .ofNat beam.lastSent then 0x04 else 0
  requests : ∀ bit, (load memory interruptRequests).toNat.testBit bit ↔
    (load origin interruptRequests).toNat.testBit bit ∨
    ∃ passed : Beam,
      (passed.requests (load origin lineCompare) (load origin displayStatus)).toNat.testBit bit

variable [PlainMemory μ]

theorem shows_elapse (raster : Raster) {dots : Nat} (memory : μ) (long : frameDots ≤ dots) :
    Shows memory ((raster.elapse dots).run memory).1.beam ((raster.elapse dots).run memory).2 := by
  have every (beam : Beam) : beam.Passed raster.clock (raster.clock + dots) :=
    beam.passed_of_frameDots_le (Nat.add_le_add_left long _)
  have begun := Nat.le_refl raster.clock
  have inside := Nat.lt_add_of_pos_right (n := raster.clock) raster.beam.mode.dots_pos
  -- Each part is set somewhere in a frame, and a frame's time passes every position.
  refine ⟨(Undisturbed.refl memory).elapse raster dots, ?_, ?_, ?_, fun bit => ?_⟩
  · exact (line_elapse dots memory begun inside).1 ⟨.blank 0, rfl, every _⟩
  · exact (mode_elapse dots memory begun inside).1 ⟨.start, by decide, every _⟩
  · exact (coincidence_elapse dots memory begun inside).1 ⟨.visible 0 .transfer, rfl, every _⟩
  · refine (requests_elapse dots memory begun inside bit).trans (or_congr_right ?_)
    exact exists_congr fun beam => and_iff_left (every beam)

/-- There is only one such memory. -/
theorem Shows.unique {origin memory other : μ} {beam : Beam} (shows : Shows origin beam memory)
    (shows' : Shows origin beam other) : memory = other := by
  have statuses : load memory displayStatus = load other displayStatus := by
    refine DisplayStatus.eq_of_parts ?_ ?_ ?_
    · rw [shows.mode, shows'.mode]
    · rw [shows.coincidence, shows'.coincidence]
    · rw [shows.undisturbed.choice, shows'.undisturbed.choice]
  have requests : load memory interruptRequests = load other interruptRequests := by
    refine UInt8.toNat_inj.1 (Nat.eq_of_testBit_eq fun bit => Bool.eq_iff_iff.2 ?_)
    rw [shows.requests, shows'.requests]
  refine PlainMemory.eq_of_load_eq fun address => ?_
  by_cases signal : IsSignal address
  · rcases signal with rfl | rfl | rfl
    · rw [shows.line, shows'.line]
    · exact statuses
    · exact requests
  · rw [shows.undisturbed.other _ signal, shows'.undisturbed.other _ signal]

end

end DotMatrix
