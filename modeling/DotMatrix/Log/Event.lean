/-!
# Events

What a part of the machine reports while it works. An event carries the numbers of the occasion and
no text: `Log/Record` words it, so that running the machine costs no formatting.
-/

namespace DotMatrix

/-- Something worth a log record. -/
inductive Event where
  /-- The processor is about to execute the opcode fetched from `pc`. -/
  | executing (pc : UInt16) (opcode : UInt8)
  /-- The processor met an unused opcode at `pc` and locked up; the other words are its registers. -/
  | lockedUp (opcode : UInt8) (pc sp af bc de hl : UInt16)
  /-- The processor executed STOP at `pc`. -/
  | stopped (pc : UInt16)
  /-- A write to cartridge ROM had no effect. -/
  | romWriteIgnored (address : UInt16) (value : UInt8)
  /-- A cartridge image of `size` bytes does not fit into the mapped area. -/
  | romTruncated (size : Nat)
  /-- A cartridge image of `size` bytes was mapped. -/
  | romLoaded (title : String) (size : Nat)
  /-- A byte left over the serial port; `echo` says whether captured bytes are shown to the user. -/
  | serialByte (byte : UInt8) (echo : Bool)
  /-- The vertical blank began, with `frames` frames completed before. -/
  | vblankStart (frames : Nat)
  /-- The `frames`-th frame was completed. -/
  | frameComplete (frames : Nat)
deriving DecidableEq, Repr

end DotMatrix
