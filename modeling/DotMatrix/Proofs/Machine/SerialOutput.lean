import DotMatrix.Proofs.Machine.Steps
import DotMatrix.Proofs.Text.Ascii

/-!
# What is sent

The bytes that a program sends are kept in order: a step adds one at its end or leaves them alone,
and only a step that takes time adds one. Faults between the bytes of an ASCII text cannot hide it
or make it up, so what was once found in the log is found in it ever after.

Results:
1. `SerialLog.run_poll`: what looking at the port does.
2. `SerialLog.contains_iff`: an ASCII text is found in the log iff its bytes are there.
3. `Machine.serial_step`: what a step adds to the log.
-/

namespace DotMatrix

open Memory Text

namespace SerialLog

variable {μ : Type} [Memory μ]

/-- The log with a byte at its end. -/
def append (log : SerialLog) (byte : UInt8) : SerialLog := { log with bytes := log.bytes.push byte }

theorem run_poll (log : SerialLog) (memory : μ) :
    log.poll.run memory =
      if load memory HardwareRegister.serialControl = transferStart then
        ((some (load memory HardwareRegister.serialData),
          log.append (load memory HardwareRegister.serialData)),
          store memory HardwareRegister.serialControl 0)
      else ((none, log), memory) := by
  by_cases starts : load memory HardwareRegister.serialControl = transferStart
  · simp [poll, append, starts]
  · simp [poll, starts]

/-! ## Looking for a text -/

theorem contains_iff (log : SerialLog) {needle : String}
    (ascii : ∀ char ∈ needle.toList, char.toNat < 0x80) :
    log.contains needle = true ↔ needle.toList.map Utf8.asciiByte <:+: log.bytes.toList :=
  occursIn_iff.trans (Utf8.infix_decode_iff ascii log.bytes.toList)

/-- What is found in the log is found in every log that begins with it. -/
theorem contains_of_prefix {log after : SerialLog} {needle : String}
    (ascii : ∀ char ∈ needle.toList, char.toNat < 0x80)
    (starts : log.bytes.toList <+: after.bytes.toList) (found : log.contains needle = true) :
    after.contains needle = true := by
  rw [contains_iff _ ascii] at found ⊢
  exact found.trans starts.isInfix

theorem prefix_append (log : SerialLog) (byte : UInt8) :
    log.bytes.toList <+: (log.append byte).bytes.toList := by
  rw [append, Array.toList_push]
  exact List.prefix_append _ _

/-- What is found in the log is found in it after another byte as well. -/
theorem contains_append {log : SerialLog} {needle : String}
    (ascii : ∀ char ∈ needle.toList, char.toNat < 0x80) (found : log.contains needle = true)
    (byte : UInt8) : (log.append byte).contains needle = true :=
  contains_of_prefix ascii (log.prefix_append byte) found

theorem size_append (log : SerialLog) (byte : UInt8) :
    (log.append byte).bytes.size = log.bytes.size + 1 :=
  Array.size_push _

end SerialLog

namespace Machine

/-! ## What a step sends -/

theorem serial_step (machine : Machine) :
    machine.step.2.board.serial = machine.board.serial ∨
      machine.step.1 ≠ 0 ∧
        ∃ byte, machine.step.2.board.serial = machine.board.serial.append byte := by
  cases machine.stepCase with
  | stopped stopped =>
    rw [step_of_stopped stopped]
    exact .inl rfl
  | free going free =>
    rw [step_of_free going free, withParts_serial]
    exact .inl rfl
  | timed going timed =>
    rw [step_of_timed going timed, withParts_serial, polled, SerialLog.run_poll]
    split
    · exact .inr ⟨timed, _, rfl⟩
    · exact .inl rfl

/-- A step after which the log is as long as before has sent nothing. -/
theorem serial_step_of_size_eq {machine : Machine}
    (same : machine.step.2.board.serial.bytes.size = machine.board.serial.bytes.size) :
    machine.step.2.board.serial = machine.board.serial := by
  rcases machine.serial_step with kept | ⟨-, byte, sent⟩
  · exact kept
  · rw [sent, SerialLog.size_append] at same
    omega

end Machine

end DotMatrix
