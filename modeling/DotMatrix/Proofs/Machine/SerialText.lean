import DotMatrix.Proofs.Machine.SerialCapture
import DotMatrix.Proofs.Text.Replacement

/-!
# Sent bytes as text

The result of a test program is looked for in the decoded log, and a program may send anything. Here
the search in the text is brought back to the bytes: an ASCII text is found if and only if its bytes
were sent one after the other, so other bytes neither hide it nor make it up, and later ones cannot
take it away.

Results:
1. `SerialLog.text_eq_iff`: the text is what the description of replaced faults says.
2. `SerialLog.contains_iff_toUTF8`: an ASCII text is found iff its bytes are there.
3. `serial_text`: both, and what later bytes and a well-formed text do.
-/

namespace DotMatrix

open Memory Text

namespace SerialLog

theorem toList_text (log : SerialLog) : log.text.toList = Utf8.decode log.bytes.toList :=
  String.toList_ofList

theorem text_eq_iff (log : SerialLog) (text : String) :
    log.text = text ↔ Utf8.Replaced log.bytes.toList text.toList := by
  rw [Utf8.replaced_iff, ← toList_text, String.toList_inj]

theorem text_eq_of_toUTF8 {log : SerialLog} {text : String} (sent : log.bytes = text.toUTF8.data) :
    log.text = text := by
  rw [← String.toList_inj, toList_text, sent, Utf8.toUTF8_toList, Utf8.decode_flatMap]

theorem contains_iff_toUTF8 (log : SerialLog) {needle : String}
    (ascii : ∀ char ∈ needle.toList, char.toNat < 0x80) :
    log.contains needle = true ↔ needle.toUTF8.data.toList <:+: log.bytes.toList := by
  rw [Utf8.toUTF8_toList_of_ascii ascii, log.contains_iff ascii]

/-! ## Later bytes -/

variable {μ : Type} [Memory μ]

/-- The log after looking at the port of one memory after the other. -/
def pollAll (log : SerialLog) (memories : List μ) : SerialLog :=
  memories.foldl (fun log memory => (log.poll.run memory).1.2) log

theorem prefix_poll (log : SerialLog) (memory : μ) :
    log.bytes.toList <+: (log.poll.run memory).1.2.bytes.toList := by
  rw [run_poll]
  split
  · exact log.prefix_append _
  · exact List.prefix_refl _

theorem prefix_pollAll (log : SerialLog) (memories : List μ) :
    log.bytes.toList <+: (log.pollAll memories).bytes.toList := by
  induction memories generalizing log with
  | nil => exact List.prefix_refl _
  | cons memory memories ih => exact (log.prefix_poll memory).trans (ih _)

end SerialLog

/-- The text of a log keeps every encoded character among the bytes and has one U+FFFD for each
maximal part of the others, and it is the only such text; so a text that is sent comes back as it
was. An ASCII text is found in the log if and only if its bytes are there, one right after the
other, whatever comes before and after them. Once found it is found ever after: in the logs that
looking at the port of any memories leads to, and in the log of the machine after anything short of
a reset. -/
theorem serial_text (log : SerialLog) :
    (∀ text : String, log.text = text ↔ Utf8.Replaced log.bytes.toList text.toList) ∧
    (∀ text : String, log.bytes = text.toUTF8.data → log.text = text) ∧
    ∀ needle : String, (∀ char ∈ needle.toList, char.toNat < 0x80) →
      (log.contains needle = true ↔ needle.toUTF8.data.toList <:+: log.bytes.toList) ∧
      (log.contains needle = true →
        (∀ {μ : Type} [Memory μ] (memories : List μ),
          (log.pollAll memories).contains needle = true) ∧
        ∀ (machine : Machine) (actions : List Machine.Action), machine.board.serial = log →
          .reset ∉ actions →
          (Machine.replay actions machine).board.serial.contains needle = true) := by
  refine ⟨log.text_eq_iff, fun text => SerialLog.text_eq_of_toUTF8, fun needle ascii => ?_⟩
  refine ⟨log.contains_iff_toUTF8 ascii, fun found => ⟨fun memories => ?_, ?_⟩⟩
  · exact SerialLog.contains_of_prefix ascii (log.prefix_pollAll memories) found
  · rintro machine actions rfl kept
    exact SerialLog.contains_of_prefix ascii (Machine.bytes_replay kept machine) found

/-- The result of the tests between bytes that are no text: one that no character starts with, and
the first two of the three bytes of a character. Whatever the machine sends next, it is found. -/
theorem serial_text_noisy :
    let log : SerialLog := ⟨#[0xFF, 0x50, 0x61, 0x73, 0x73, 0x65, 0x64, 0xE2, 0x82], false⟩
    let board := (Machine.initial {}).board
    let machine := (Machine.initial {}).withParts board.cpu log board.ppu 0 MemoryMap.initial
    (∀ char ∈ "Passed".toList, char.toNat < 0x80) ∧ machine.board.serial = log ∧
      (Machine.replay [.poll, .step] machine).board.serial.contains "Passed" = true ∧
      "é".toUTF8.data = #[0xC3, 0xA9] ∧ (⟨#[0xC3, 0xA9], false⟩ : SerialLog).text = "é" := by
  intro log board machine
  have ascii : ∀ char ∈ "Passed".toList, char.toNat < 0x80 := by simp
  have sent : "Passed".toUTF8.data.toList <:+: log.bytes.toList :=
    ⟨[0xFF], [0xE2, 0x82], by decide⟩
  have holds : machine.board.serial = log := Machine.withParts_serial ..
  have encoded : "é".toUTF8.data = #[0xC3, 0xA9] := by decide
  obtain ⟨found, later⟩ := (serial_text log).2.2 "Passed" ascii
  refine ⟨ascii, holds, (later (found.2 sent)).2 machine _ holds (by decide), encoded, ?_⟩
  exact (serial_text ⟨#[0xC3, 0xA9], false⟩).2.1 "é" encoded.symm

end DotMatrix
