import DotMatrix.Text.Hexadecimal

/-!
# Quoted characters

A character of the Latin-1 block between single quotes, for log records: the quote, backslashes and the
usual control characters take a backslash, other characters without a shape of their own are written
by number.
-/

namespace DotMatrix.Text

/-- Whether a character below 256 has no shape of its own. -/
def isInvisible (code : Nat) : Bool :=
  code < 0x20 || (0x7F ≤ code && code ≤ 0xA0) || code == 0xAD

/-- A character as it stands between single quotes. A double quote needs no backslash there. -/
def escaped (c : Char) : String :=
  if c = '\x00' then "\\0"
  else if c = '\t' then "\\t"
  else if c = '\n' then "\\n"
  else if c = '\r' then "\\r"
  else if c = '\'' then "\\'"
  else if c = '\\' then "\\\\"
  else if isInvisible c.toNat then "\\u\x7b" ++ hex 1 c.toNat ++ "\x7d"
  else c.toString

/-- A character between single quotes. -/
def quotedChar (c : Char) : String := "'" ++ escaped c ++ "'"

end DotMatrix.Text
