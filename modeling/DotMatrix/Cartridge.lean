import DotMatrix.Log.Event
import DotMatrix.Memory.Region
import DotMatrix.Text.Blank

/-!
# Cartridge images

A cartridge without bank switching shows its first 32 KiB in the ROM region; the rest of the region
reads as zero. Its title stands in the header, at $0134-$0143 of what is mapped.
-/

namespace DotMatrix.Cartridge

/-- The bytes of a cartridge file. -/
abbrev Image := Array UInt8

/-- The ROM region with an image in place: the image's bytes, then zeros. -/
def mapped (image : Image) : Region.rom.Bank := Vector.ofFn fun offset => image.getD offset 0

/-- The title in the header of a mapped image: the bytes up to the first zero, one character each,
without blanks at either end. -/
def title (rom : Region.rom.Bank) : String :=
  let field := (rom.toArray.extract 0x134 0x144).toList
  Text.trim (String.ofList ((field.takeWhile (· != 0)).map fun byte => Char.ofNat byte.toNat))

/-- What mapping an image reports: that it is too large, if it is, and its title. -/
def loadEvents (image : Image) : List Event :=
  let loaded := .romLoaded (title (mapped image)) image.size
  if image.size > Region.rom.size then [.romTruncated image.size, loaded] else [loaded]

/-- A mapped byte is the image's byte, or zero beyond its end. -/
theorem getElem_mapped (image : Image) (offset : Nat) (h : offset < Region.rom.size) :
    (mapped image)[offset] = image.getD offset 0 := by
  simp [mapped]

end DotMatrix.Cartridge
