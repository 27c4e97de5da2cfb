import DotMatrix.Bus.HardwareRegister
import DotMatrix.Text.Utf8

/-!
# The serial port

Nobody is at the other end of the cable: a byte that a program sends is kept, and the transfer is
over at once. Test programs tell their results this way.
-/

namespace DotMatrix

/-- What was sent over the serial port. -/
structure SerialLog where
  /-- The bytes, in order. -/
  bytes : Array UInt8
  /-- Whether each byte is shown to the user. -/
  echo : Bool
deriving DecidableEq, Repr

namespace SerialLog

/-- The serial control value that sends the byte. -/
def transferStart : UInt8 := 0x81

/-- Nothing was sent. -/
def empty (echo : Bool) : SerialLog := ⟨#[], echo⟩

/-- Takes the byte that is being sent, if any, and ends the transfer. -/
def poll (log : SerialLog) : Transaction (Option UInt8 × SerialLog) := do
  let control ← Bus.read HardwareRegister.serialControl
  if control = transferStart then
    let byte ← Bus.read HardwareRegister.serialData
    Bus.write HardwareRegister.serialControl 0
    Bus.report (.serialByte byte log.echo)
    return (some byte, { log with bytes := log.bytes.push byte })
  else
    return (none, log)

/-- Forgets what was sent. -/
def clear (log : SerialLog) : SerialLog := { log with bytes := #[] }

/-- The characters of what was sent. -/
def characters (log : SerialLog) : List Char := Text.Utf8.decode log.bytes.toList

/-- What was sent, as text. -/
def text (log : SerialLog) : String := String.ofList log.characters

/-- Whether a text occurs in another one. -/
def occursIn (needle : List Char) : List Char → Bool
  | [] => needle.isEmpty
  | first :: rest => needle.isPrefixOf (first :: rest) || occursIn needle rest

theorem occursIn_iff {needle text : List Char} : occursIn needle text ↔ needle <:+: text := by
  induction text with
  | nil => simp [occursIn]
  | cons first rest ih => simp [occursIn, ih, List.infix_cons_iff]

/-- Whether a text occurs in what was sent. -/
def contains (log : SerialLog) (needle : String) : Bool := occursIn needle.toList log.characters

end SerialLog

end DotMatrix
