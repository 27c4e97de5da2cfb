import DotMatrix.Memory.Plain
import DotMatrix.Proofs.Video.Sources
import DotMatrix.Video.Raster

/-!
# What the display writes

As the beam passes from position to position, the display writes three registers and nothing else:
the line, the status and the interrupt requests. The status has three parts, the mode, the
coincidence bit and the choice of interrupts, and the last is left to the program.

Results:
1. `memory_advance`: what is written depends on the position and the memory, not on the frames.
2. `load_signal_of_not`: all other bytes stay as they are.
3. `line_signal`, `mode_signal`, `coincidence_signal`, `choice_signal`, `requests_signal`: what a
   pass to the next position does to each part of the registers.
-/

namespace DotMatrix

open Memory HardwareRegister

/-- A register that the display writes. -/
def IsSignal (address : UInt16) : Prop :=
  address = line ∨ address = displayStatus ∨ address = interruptRequests

/-! ## The parts of the status -/

namespace DisplayStatus

/-- The mode that a status byte shows. -/
def mode (status : UInt8) : UInt8 := status &&& 0x03

/-- The coincidence bit of a status byte, in place. -/
def coincidencePart (status : UInt8) : UInt8 := status &&& 0x04

/-- The choice of interrupts in a status byte, and the bit without a meaning. -/
def choice (status : UInt8) : UInt8 := status &&& 0xF8

theorem eq_of_parts {status other : UInt8} (modes : mode status = mode other)
    (coincidences : coincidencePart status = coincidencePart other)
    (choices : choice status = choice other) : status = other := by
  have split (byte : UInt8) : mode byte ||| coincidencePart byte ||| choice byte = byte := by
    revert byte
    exact BitField.forall_byte (by decide +kernel)
  rw [← split status, ← split other, modes, coincidences, choices]

/-- Whether the display interrupt is requested when a line's transfer ends. -/
def asks (status compare line : UInt8) : Bool :=
  let choices : DisplayStatus := .retain status
  choices.contains horizontalBlankInterrupt || (compare == line && choices.contains lineInterrupt)

theorem asks_choice (status compare line : UInt8) :
    asks (choice status) compare line = asks status compare line := by
  have same (mask : DisplayStatus) (within : mask.bits &&& 0xF8 = mask.bits) :
      BitField.contains (.retain (choice status)) mask =
        BitField.contains (.retain status) mask := by
    simp only [BitField.contains, BitField.bits_retain, choice]
    rw [UInt8.and_assoc, UInt8.and_comm 0xF8, within]
  simp only [asks, same horizontalBlankInterrupt (by decide), same lineInterrupt (by decide)]

/-- A status byte after the mode in it is replaced. -/
def withMode (status : UInt8) (mode : Mode) : UInt8 := (status &&& ~~~0x03) ||| (mode.bits &&& 0x03)

/-- A status byte after the coincidence bit is set or cleared. -/
def withCoincidence (status : UInt8) (value : Bool) : UInt8 :=
  (BitField.set (.retain status : DisplayStatus) coincidence value).bits

@[simp] theorem parts_withMode (status : UInt8) (value : Mode) :
    mode (withMode status value) = value.bits ∧
    coincidencePart (withMode status value) = coincidencePart status ∧
    choice (withMode status value) = choice status := by
  revert status
  cases value <;> exact BitField.forall_byte (by decide +kernel)

@[simp] theorem parts_withCoincidence (status : UInt8) (value : Bool) :
    mode (withCoincidence status value) = mode status ∧
    coincidencePart (withCoincidence status value) = (if value then 0x04 else 0) ∧
    choice (withCoincidence status value) = choice status := by
  revert status
  cases value <;> exact BitField.forall_byte (by decide +kernel)

/-- A status byte after the mode in it followed the beam to the next position. -/
def follow (beam : Beam) (status : UInt8) : UInt8 :=
  if beam.next.mode = beam.mode then status else withMode status beam.next.mode

@[simp] theorem parts_follow (beam : Beam) (status : UInt8) :
    mode (follow beam status) =
      (if beam.next.mode = beam.mode then mode status else beam.next.mode.bits) ∧
    coincidencePart (follow beam status) = coincidencePart status ∧
    choice (follow beam status) = choice status := by
  unfold follow
  split <;> simp

end DisplayStatus

/-! ## Single transactions -/

section

variable {μ : Type} [Memory μ] [PlainMemory μ]

theorem load_setMode (mode : Mode) (memory : μ) (address : UInt16) :
    load ((Bus.setMode mode.bits).run memory).2 address =
      if address = displayStatus then
        DisplayStatus.withMode (load memory displayStatus) mode
      else load memory address :=
  PlainMemory.load_store_hardware (by decide) _ _ _

theorem load_setCoincidence (value : Bool) (memory : μ) (address : UInt16) :
    load ((Bus.setStatus DisplayStatus.coincidence value).run memory).2 address =
      if address = displayStatus then
        DisplayStatus.withCoincidence (load memory displayStatus) value
      else load memory address :=
  PlainMemory.load_store_hardware (by decide) _ _ _

theorem load_requestInterrupt (mask : Interrupts) (memory : μ) (address : UInt16) :
    load ((Bus.requestInterrupt mask).run memory).2 address =
      if address = interruptRequests then load memory interruptRequests ||| mask.bits
      else load memory address :=
  PlainMemory.load_store_hardware (by decide) _ _ _

theorem load_showLine (number : Nat) (memory : μ) (address : UInt16) :
    load ((Raster.showLine number).run memory).2 address =
      if address = line then .ofNat number else load memory address :=
  PlainMemory.load_store_hardware (by decide) _ _ _

omit [PlainMemory μ] in
theorem run_hasStatus (mask : DisplayStatus) (memory : μ) :
    (Bus.hasStatus mask).run memory =
      (BitField.contains (.retain (load memory displayStatus)) mask, memory) := by
  simp [Bus.hasStatus, Bus.readStatus]

theorem load_endTransfer (number : UInt8) (memory : μ) (address : UInt16) :
    load ((Raster.endTransfer number).run memory).2 address =
      if address = displayStatus then
        DisplayStatus.withCoincidence (load memory displayStatus)
          (load memory lineCompare = number)
      else if address = interruptRequests then
        load memory interruptRequests |||
          (if DisplayStatus.asks (load memory displayStatus) (load memory lineCompare) number then
            Interrupts.display.bits
          else 0)
      else load memory address := by
  have apart : displayStatus ≠ interruptRequests ∧ lineCompare ≠ interruptRequests ∧
      interruptRequests ≠ displayStatus := by decide
  unfold Raster.endTransfer DisplayStatus.asks
  -- The request is made up to twice; the second time it changes nothing.
  cases atBlank : BitField.contains (.retain (load memory displayStatus))
      DisplayStatus.horizontalBlankInterrupt <;>
    cases atLine : BitField.contains (.retain (load memory displayStatus))
      DisplayStatus.lineInterrupt <;>
    by_cases compared : load memory lineCompare = number <;>
    by_cases requests : address = interruptRequests <;>
    simp [run_hasStatus, load_requestInterrupt, load_setCoincidence, atBlank, atLine, compared,
      requests, apart, UInt8.or_assoc]

end

/-! ## Passing to the next position -/

namespace Beam

/-- What is written when a position is over. -/
def signal : Beam → Transaction Unit
  | .visible _ .search => Bus.setMode Mode.transfer.bits
  | .visible line .transfer => do
      Bus.setMode Mode.horizontalBlank.bits
      Raster.endTransfer (.ofNat line.val)
  | .visible line .horizontalBlank => do
      Raster.showLine (line.val + 1)
      if line.val + 1 < screenHeight then
        Bus.setMode Mode.search.bits
      else
        Bus.setMode Mode.verticalBlank.bits
        Bus.requestInterrupt Interrupts.verticalBlank
  | .blank line => do
      Raster.showLine (screenHeight + line.val + 1)
      if line.val + 1 < blankLines then
        return ()
      else
        Raster.showLine 0
        Bus.setMode Mode.search.bits

/-- Whether a position is the last of its line. -/
def endsLine : Beam → Bool
  | .visible _ .horizontalBlank => true
  | .visible _ _ => false
  | .blank _ => true

theorem line_afterVisible (line : Fin screenHeight) : (afterVisible line).line = line.val + 1 := by
  unfold afterVisible
  by_cases more : line.val + 1 < screenHeight
  · rw [dif_pos more]
    rfl
  · rw [dif_neg more]
    exact Nat.le_antisymm (Nat.le_of_not_lt more) line.isLt

/-- The interrupts requested when a position is over. -/
def requests (compare status : UInt8) : Beam → UInt8
  | .visible line .transfer =>
      if DisplayStatus.asks status compare (.ofNat line.val) then Interrupts.display.bits else 0
  | .visible line .horizontalBlank =>
      if line.val + 1 < screenHeight then 0 else Interrupts.verticalBlank.bits
  | _ => 0

end Beam

section

variable {μ : Type} [Memory μ]

/-- What a pass leaves in memory does not depend on the frames drawn. -/
theorem Raster.memory_advance (raster : Raster) (memory : μ) :
    (raster.advance.run memory).2 = (raster.beam.signal.run memory).2 := by
  obtain ⟨beam, back, front, frames⟩ := raster
  rcases beam with ⟨line, stage⟩ | line
  · cases stage with
    | search => simp [advance, Beam.signal]
    | transfer => simp [advance, Beam.signal]
    | horizontalBlank =>
      have undrawn := (Scanline.reads_render (.ofNat line.val)).run_eq memory memory fun _ _ => rfl
      simp only [advance, finishLine, Beam.signal, Transaction.run_bind]
      rw [undrawn]
      split <;> simp [beginBlank]
  · by_cases more : line.val + 1 < blankLines
    · simp [advance, finishBlankLine, Beam.signal, more]
    · simp [advance, finishBlankLine, Beam.signal, more]

variable [PlainMemory μ]

theorem load_signal_of_not (beam : Beam) (memory : μ) {address : UInt16}
    (other : ¬ IsSignal address) :
    load (beam.signal.run memory).2 address = load memory address := by
  obtain ⟨line, status, requests⟩ : address ≠ HardwareRegister.line ∧ address ≠ displayStatus ∧
      address ≠ interruptRequests := by
    simpa only [IsSignal, not_or] using other
  rcases beam with ⟨line, stage⟩ | line
  · cases stage with
    | search => simp [Beam.signal, load_setMode, *]
    | transfer => simp [Beam.signal, load_setMode, load_endTransfer, *]
    | horizontalBlank =>
      simp only [Beam.signal, Transaction.run_bind]
      split <;> simp [load_setMode, load_showLine, load_requestInterrupt, *]
  · simp only [Beam.signal, Transaction.run_bind]
    split <;> simp [load_setMode, load_showLine, *]

theorem line_signal (beam : Beam) (memory : μ) :
    load (beam.signal.run memory).2 line =
      if beam.endsLine then .ofNat beam.next.line else load memory line := by
  have apart : line ≠ displayStatus ∧ line ≠ interruptRequests := by decide
  rcases beam with ⟨number, stage⟩ | number
  · cases stage with
    | search => simp [Beam.signal, Beam.endsLine, load_setMode, apart]
    | transfer => simp [Beam.signal, Beam.endsLine, load_setMode, load_endTransfer, apart]
    | horizontalBlank =>
      simp only [Beam.signal, Beam.endsLine, Beam.next, Beam.line_afterVisible,
        Transaction.run_bind]
      split <;> simp [load_setMode, load_showLine, load_requestInterrupt, apart]
  · by_cases more : number.val + 1 < blankLines
    · simp only [Beam.signal, Beam.endsLine, Beam.next, Beam.afterBlank, more, dif_pos, if_true,
        Transaction.run_bind, Transaction.run_pure, load_showLine, Beam.line, Nat.add_assoc]
    · simp [Beam.signal, Beam.endsLine, Beam.next, Beam.afterBlank, more, load_setMode,
        load_showLine, apart, Beam.line, Beam.start]

/-- The mode in the status follows the beam; the coincidence bit is set or cleared when a line's
transfer ends, and the rest of the status stays. -/
theorem status_signal (beam : Beam) (memory : μ) :
    load (beam.signal.run memory).2 displayStatus =
      match beam with
      | .visible number .transfer =>
          DisplayStatus.withCoincidence (DisplayStatus.follow beam (load memory displayStatus))
            (load memory lineCompare = .ofNat number.val)
      | _ => DisplayStatus.follow beam (load memory displayStatus) := by
  have apart : displayStatus ≠ line ∧ displayStatus ≠ interruptRequests ∧
      lineCompare ≠ displayStatus := by decide
  unfold DisplayStatus.follow
  rcases beam with ⟨number, stage⟩ | number
  · cases stage with
    | search => simp [Beam.signal, Beam.next, Beam.mode, load_setMode]
    | transfer => simp [Beam.signal, Beam.next, Beam.mode, load_setMode, load_endTransfer, apart]
    | horizontalBlank =>
      simp only [Beam.signal, Beam.next, Beam.afterVisible, Transaction.run_bind]
      split <;> simp [Beam.mode, load_setMode, load_showLine, load_requestInterrupt, apart]
  · by_cases more : number.val + 1 < blankLines
    · simp [Beam.signal, Beam.next, Beam.afterBlank, Beam.mode, more, load_showLine, apart]
    · simp [Beam.signal, Beam.next, Beam.afterBlank, Beam.start, Beam.mode, more, load_setMode,
        load_showLine, apart]

theorem mode_signal (beam : Beam) (memory : μ) :
    DisplayStatus.mode (load (beam.signal.run memory).2 displayStatus) =
      if beam.next.mode = beam.mode then DisplayStatus.mode (load memory displayStatus)
      else beam.next.mode.bits := by
  rw [status_signal]
  split <;> simp

theorem coincidence_signal (beam : Beam) (memory : μ) :
    DisplayStatus.coincidencePart (load (beam.signal.run memory).2 displayStatus) =
      if beam.mode = .transfer then
        if load memory lineCompare = .ofNat beam.line then 0x04 else 0
      else DisplayStatus.coincidencePart (load memory displayStatus) := by
  rw [status_signal]
  rcases beam with ⟨number, stage⟩ | number
  · cases stage with
    | search => simp [Beam.mode]
    | transfer =>
      simp only [DisplayStatus.parts_withCoincidence, decide_eq_true_eq, Beam.mode, if_true]
      rfl
    | horizontalBlank => simp [Beam.mode]
  · simp [Beam.mode]

theorem choice_signal (beam : Beam) (memory : μ) :
    DisplayStatus.choice (load (beam.signal.run memory).2 displayStatus) =
      DisplayStatus.choice (load memory displayStatus) := by
  rw [status_signal]
  split <;> simp

theorem requests_signal (beam : Beam) (memory : μ) :
    load (beam.signal.run memory).2 interruptRequests =
      load memory interruptRequests |||
        beam.requests (load memory lineCompare) (load memory displayStatus) := by
  have apart : interruptRequests ≠ line ∧ interruptRequests ≠ displayStatus ∧
      lineCompare ≠ displayStatus := by decide
  rcases beam with ⟨number, stage⟩ | number
  · cases stage with
    | search => simp [Beam.signal, Beam.requests, load_setMode, apart]
    | transfer =>
      have kept := DisplayStatus.asks_choice
        (DisplayStatus.withMode (load memory displayStatus) .horizontalBlank)
        (load memory lineCompare) (.ofNat number.val)
      rw [(DisplayStatus.parts_withMode _ _).2.2, DisplayStatus.asks_choice] at kept
      simp [Beam.signal, Beam.requests, load_setMode, load_endTransfer, apart, kept]
    | horizontalBlank =>
      simp only [Beam.signal, Beam.requests, Transaction.run_bind]
      split <;> simp [load_setMode, load_showLine, load_requestInterrupt, apart]
  · simp only [Beam.signal, Beam.requests, Transaction.run_bind]
    split <;> simp [load_setMode, load_showLine, apart]

end

end DotMatrix
