import DotMatrix.Cpu.Decode
import DotMatrix.Cpu.Listing
import DotMatrix.Log.Event
import DotMatrix.Memory.Region
import DotMatrix.Text.Quoted

/-!
# Log records

A record is a line of text with a level. `Event.record` words what the machine reports.
-/

namespace DotMatrix.Log

/-- How much a record matters. -/
inductive Level where
  | error
  | warn
  | info
  | debug
  | trace
deriving DecidableEq, Repr

namespace Level

/-- The place of a level, from the most severe on. -/
def rank : Level → Nat
  | .error => 0
  | .warn => 1
  | .info => 2
  | .debug => 3
  | .trace => 4

/-- Whether a record of this level is kept when records up to `limit` are wanted. -/
def isKept (level limit : Level) : Bool := level.rank ≤ limit.rank

def name : Level → String
  | .error => "error"
  | .warn => "warn"
  | .info => "info"
  | .debug => "debug"
  | .trace => "trace"

/-- The level with a name. -/
def ofName? (text : String) : Option Level :=
  [.error, .warn, .info, .debug, .trace].find? fun level => level.name == text

end Level

/-- A line of the log. -/
structure Record where
  level : Level
  text : String
deriving DecidableEq, Repr

/-- A byte as it stands in log records. -/
def byteText (byte : UInt8) : String := "0x" ++ Text.hexCapital 2 byte.toNat

/-- A word as it stands in log records. -/
def wordText (word : UInt16) : String := "0x" ++ Text.hexCapital 4 word.toNat

/-- The record of an event. -/
def ofEvent : Event → Record
  | .executing pc opcode =>
      ⟨.trace, wordText pc ++ ": " ++ Text.hexCapital 2 opcode.toNat ++ " " ++
        (Instruction.decode opcode).listing⟩
  | .lockedUp opcode pc sp af bc de hl =>
      ⟨.error, "CPU locked: invalid opcode " ++ byteText opcode ++ " at PC=" ++ wordText pc ++
        " (SP=" ++ wordText sp ++ " AF=" ++ wordText af ++ " BC=" ++ wordText bc ++
        " DE=" ++ wordText de ++ " HL=" ++ wordText hl ++ ")"⟩
  | .stopped pc => ⟨.debug, "STOP at " ++ wordText pc⟩
  | .romWriteIgnored address value =>
      ⟨.debug, "Ignoring write of " ++ byteText value ++ " to ROM at " ++ wordText address ++
        " (no mapper)"⟩
  | .romTruncated size =>
      ⟨.warn, s!"ROM is {size} bytes; only the first {Region.rom.size} are mapped (no bank switching)"⟩
  | .romLoaded title size => ⟨.info, s!"Loaded ROM '{title}' ({size} bytes)"⟩
  | .serialByte byte true => ⟨.info, "serial: " ++ Text.quotedChar (Char.ofNat byte.toNat)⟩
  | .serialByte byte false => ⟨.debug, "serial byte " ++ byteText byte⟩
  | .vblankStart frames => ⟨.trace, s!"VBlank start (frame {frames})"⟩
  | .frameComplete frames => ⟨.debug, s!"frame {frames} complete"⟩

end DotMatrix.Log
