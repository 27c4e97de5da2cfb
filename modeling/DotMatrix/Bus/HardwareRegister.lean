import DotMatrix.BitField
import DotMatrix.Bus.Transaction
import DotMatrix.Word

/-!
# Hardware registers

The addresses of the registers that the core touches, the registers whose bits have names, and the
transactions on them. A change of one bit field reads the register and writes it back, so bits that
have no name keep what a program wrote there.
-/

namespace DotMatrix

/-! ## Addresses -/

namespace HardwareRegister

/-- The byte to send over the serial port. -/
def serialData : UInt16 := 0xFF01
/-- Serial control; writing `transferStart` there sends the byte. -/
def serialControl : UInt16 := 0xFF02
/-- Requested interrupts. -/
def interruptRequests : UInt16 := 0xFF0F
/-- What the display shows. -/
def displayControl : UInt16 := 0xFF40
/-- What the display is doing. -/
def displayStatus : UInt16 := 0xFF41
/-- Vertical scroll of the background. -/
def scrollY : UInt16 := 0xFF42
/-- Horizontal scroll of the background. -/
def scrollX : UInt16 := 0xFF43
/-- The line being drawn. -/
def line : UInt16 := 0xFF44
/-- The line that the coincidence bit of the display status waits for. -/
def lineCompare : UInt16 := 0xFF45
/-- Shades of the background colours. -/
def backgroundPalette : UInt16 := 0xFF47
/-- First line of the window. -/
def windowY : UInt16 := 0xFF4A
/-- First column of the window, plus seven. -/
def windowX : UInt16 := 0xFF4B
/-- Enabled interrupts. -/
def interruptEnable : UInt16 := 0xFFFF

end HardwareRegister

/-! ## Registers with named bits -/

/-- The display control register; all eight bits have a meaning. -/
abbrev DisplayControl := BitField 0xFF

namespace DisplayControl

def displayEnabled (control : DisplayControl) : Bool := control.contains ⟨0x80⟩
def windowMapHigh (control : DisplayControl) : Bool := control.contains ⟨0x40⟩
def windowEnabled (control : DisplayControl) : Bool := control.contains ⟨0x20⟩
def unsignedTiles (control : DisplayControl) : Bool := control.contains ⟨0x10⟩
def backgroundMapHigh (control : DisplayControl) : Bool := control.contains ⟨0x08⟩
def tallSprites (control : DisplayControl) : Bool := control.contains ⟨0x04⟩
def spritesEnabled (control : DisplayControl) : Bool := control.contains ⟨0x02⟩
def backgroundEnabled (control : DisplayControl) : Bool := control.contains ⟨0x01⟩

end DisplayControl

/-- The display status register. Bits 0 and 1 are the mode, bit 2 the coincidence bit, bits 3 to 6
choose the sources of the display interrupt; bit 7 has no meaning. -/
abbrev DisplayStatus := BitField 0x7F

namespace DisplayStatus

/-- The display interrupt is raised when the line coincides with the compared one. -/
def lineInterrupt : DisplayStatus := ⟨0x40⟩
/-- The display interrupt is raised when a line's sprite search begins. -/
def searchInterrupt : DisplayStatus := ⟨0x20⟩
/-- The display interrupt is raised when the vertical blank begins. -/
def verticalBlankInterrupt : DisplayStatus := ⟨0x10⟩
/-- The display interrupt is raised when a line's horizontal blank begins. -/
def horizontalBlankInterrupt : DisplayStatus := ⟨0x08⟩
/-- The line coincides with the compared one. -/
def coincidence : DisplayStatus := ⟨0x04⟩

end DisplayStatus

/-- A set of interrupts, requested or enabled. -/
abbrev Interrupts := BitField 0x1F

namespace Interrupts

def verticalBlank : Interrupts := ⟨0x01⟩
def display : Interrupts := ⟨0x02⟩
def timer : Interrupts := ⟨0x04⟩
def serial : Interrupts := ⟨0x08⟩
def joypad : Interrupts := ⟨0x10⟩

end Interrupts

/-! ## Transactions -/

namespace Bus

open HardwareRegister

/-- Reads a word, low byte first; its second address wraps. -/
def readWord (address : UInt16) : Transaction UInt16 := do
  let low ← read address
  let high ← read (address + 1)
  return Word.join high low

/-- Writes a word, low byte first; its second address wraps. -/
def writeWord (address : UInt16) (word : UInt16) : Transaction Unit := do
  write address (Word.low word)
  write (address + 1) (Word.high word)

/-- Writes bytes from `address` on; addresses wrap at the end of the space. -/
def writeAll (address : UInt16) : List UInt8 → Transaction Unit
  | [] => return ()
  | byte :: bytes => .write address byte (writeAll (address + 1) bytes)

/-- Reads the display control register. -/
def readControl : Transaction DisplayControl := .retain <$> read displayControl

/-- Reads the display status register. -/
def readStatus : Transaction DisplayStatus := .retain <$> read displayStatus

/-- Whether all bits of `mask` are set in the display status. -/
def hasStatus (mask : DisplayStatus) : Transaction Bool := do
  let status ← readStatus
  return status.contains mask

/-- Sets or clears the bits of `mask` in the display status. -/
def setStatus (mask : DisplayStatus) (value : Bool) : Transaction Unit := do
  let status ← readStatus
  write displayStatus (status.set mask value).bits

/-- Replaces the mode in the display status. -/
def setMode (mode : UInt8) : Transaction Unit := do
  let status ← read displayStatus
  write displayStatus ((status &&& ~~~0x03) ||| (mode &&& 0x03))

/-- Whether all interrupts of `mask` are requested. -/
def isRequested (mask : Interrupts) : Transaction Bool := do
  let requests : Interrupts := .retain (← read interruptRequests)
  return requests.contains mask

/-- Requests the interrupts of `mask`. -/
def requestInterrupt (mask : Interrupts) : Transaction Unit := do
  let requests ← read interruptRequests
  write interruptRequests (requests ||| mask.bits)

/-- Withdraws the requests for the interrupts of `mask`. -/
def clearInterrupt (mask : Interrupts) : Transaction Unit := do
  let requests ← read interruptRequests
  write interruptRequests (requests &&& ~~~mask.bits)

/-- The interrupts that are both requested and enabled. -/
def pendingInterrupts : Transaction Interrupts := do
  let requests ← read interruptRequests
  let enabled ← read interruptEnable
  return .truncate (requests &&& enabled)

end Bus

end DotMatrix
