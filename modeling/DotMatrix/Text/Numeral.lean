/-!
# Decimal numerals

Whole numbers from text: an optional plus sign, then ASCII digits, up to a limit. A character that is
no digit counts where it stands, so it is the fault of a text whose number is still within the limit
there, and a number past the limit is the fault otherwise.
-/

namespace DotMatrix.Text

/-- Why a text is no number. -/
inductive NumeralError where
  /-- There is no character. -/
  | empty
  /-- A character is no digit, or there is only a sign. -/
  | invalidDigit
  /-- The number is past the limit. -/
  | tooLarge
deriving DecidableEq, Repr

namespace NumeralError

/-- The fault in words. -/
def message : NumeralError → String
  | .empty => "cannot parse integer from empty string"
  | .invalidDigit => "invalid digit found in string"
  | .tooLarge => "number too large to fit in target type"

end NumeralError

namespace Numeral

/-- The value of a digit. -/
def digit? (c : Char) : Option Nat :=
  if '0' ≤ c ∧ c ≤ '9' then some (c.toNat - '0'.toNat) else none

/-- The number that digits make when they follow those of `value`. -/
def continueFrom (limit : Nat) (value : Nat) : List Char → Except NumeralError Nat
  | [] => .ok value
  | c :: rest =>
    match digit? c with
    | none => .error .invalidDigit
    | some digit =>
      if 10 * value + digit ≤ limit then continueFrom limit (10 * value + digit) rest
      else .error .tooLarge

/-- The number that digits make, of which there has to be one. -/
def ofDigits (limit : Nat) : List Char → Except NumeralError Nat
  | [] => .error .invalidDigit
  | digits => continueFrom limit 0 digits

/-- The number in a text, at most `limit`. -/
def parse (limit : Nat) (text : String) : Except NumeralError Nat :=
  match text.toList with
  | [] => .error .empty
  | '+' :: digits => ofDigits limit digits
  | digits => ofDigits limit digits

end Numeral

end DotMatrix.Text
