import DotMatrix.Text.Blank
import DotMatrix.Text.Numeral

/-!
# Configuration

The settings of a machine, and how they are read from environment variables. A variable that is
missing or makes no sense leaves its setting at the default.
-/

namespace DotMatrix

/-- The settings of a machine. -/
structure Config where
  /-- The dots that pass in a processor cycle. -/
  dotsPerCycle : Nat := 1
  /-- Whether bytes from the serial port are shown to the user. -/
  serialEcho : Bool := false
  /-- Whether a halted processor waits for an interrupt. -/
  enforceHalt : Bool := false
deriving DecidableEq, Repr

namespace Config

/-- The greatest number of dots per cycle that the environment may ask for. -/
def maxDotsPerCycle : Nat := 4

/-- The variable with the dots per cycle. -/
def dotsVariable : String := "SHARPBOY_PPU_CLOCK_MULTIPLIER"

/-- The variable that asks for serial bytes to be shown. -/
def echoVariable : String := "SHARPBOY_SERIAL_ECHO"

/-- The variable that asks for a halted processor to wait. -/
def haltVariable : String := "SHARPBOY_ENFORCE_HALT"

/-- A switch in words; capitals and blanks at the ends do not matter. -/
def parseSwitch? (text : String) : Option Bool :=
  let word := (Text.trim text).toLower
  if word ∈ ["1", "true", "yes", "on"] then some true
  else if word ∈ ["0", "false", "no", "off"] then some false
  else none

/-- A number of dots per cycle; blanks at the ends do not matter. -/
def parseDots? (text : String) : Option Nat :=
  match Text.Numeral.parse (UInt32.size - 1) (Text.trim text) with
  | .ok dots => if 1 ≤ dots ∧ dots ≤ maxDotsPerCycle then some dots else none
  | .error _ => none

/-- The settings in an environment. -/
def ofEnvironment (lookup : String → Option String) : Config where
  dotsPerCycle := ((lookup dotsVariable).bind parseDots?).getD 1
  serialEcho := ((lookup echoVariable).bind parseSwitch?).getD false
  enforceHalt := ((lookup haltVariable).bind parseSwitch?).getD false

end Config

end DotMatrix
