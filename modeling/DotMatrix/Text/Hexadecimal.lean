/-!
# Hexadecimal numerals

Numbers in base sixteen, filled up with zeros to a given width.
-/

namespace DotMatrix.Text

/-- A number in base sixteen with at least `width` digits, in small letters. -/
def hex (width : Nat) (number : Nat) : String :=
  let digits := Nat.toDigits 16 number
  String.ofList (List.replicate (width - digits.length) '0' ++ digits)

/-- A number in base sixteen with at least `width` digits, in capitals. -/
def hexCapital (width : Nat) (number : Nat) : String := (hex width number).toUpper

end DotMatrix.Text
