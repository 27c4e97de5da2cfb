/-!
# UTF-8 with faults

Decoding of bytes that may not be UTF-8. A character is a leading byte and up to three bytes after
it, each in a range that the leading byte fixes. Where the bytes break off, the longest beginning of
a character that is there, or else a single byte, is replaced by U+FFFD, and decoding goes on behind
it.
-/

namespace DotMatrix.Text

/-- A range of bytes, both ends included. -/
structure ByteRange where
  /-- The least byte. -/
  least : UInt8
  /-- The greatest byte. -/
  greatest : UInt8

namespace ByteRange

/-- Whether a byte lies in a range. -/
def contains (range : ByteRange) (byte : UInt8) : Bool :=
  range.least ≤ byte && byte ≤ range.greatest

/-- The range of a byte inside a character that nothing narrows. -/
def continuation : ByteRange := ⟨0x80, 0xBF⟩

end ByteRange

namespace Utf8

/-- The ranges of the bytes that follow a leading byte; `none` if no character starts with it. The
narrower second ranges leave out long forms, surrogates and numbers above U+10FFFF. -/
def following (lead : UInt8) : Option (List ByteRange) :=
  if lead < 0x80 then some []
  else if lead < 0xC2 then none
  else if lead < 0xE0 then some [.continuation]
  else if lead = 0xE0 then some [⟨0xA0, 0xBF⟩, .continuation]
  else if lead = 0xED then some [⟨0x80, 0x9F⟩, .continuation]
  else if lead < 0xF0 then some [.continuation, .continuation]
  else if lead = 0xF0 then some [⟨0x90, 0xBF⟩, .continuation, .continuation]
  else if lead < 0xF4 then some [.continuation, .continuation, .continuation]
  else if lead = 0xF4 then some [⟨0x80, 0x8F⟩, .continuation, .continuation]
  else none

/-- How many bytes at the front lie in the given ranges, one after the other. -/
def matching : List ByteRange → List UInt8 → Nat
  | range :: ranges, byte :: bytes =>
      if range.contains byte then matching ranges bytes + 1 else 0
  | _, _ => 0

/-- The bits that a leading byte adds to its character, by the number of bytes that follow. -/
def leadBits (lead : UInt8) : Nat → Nat
  | 0 => lead.toNat
  | 1 => lead.toNat % 0x20
  | 2 => lead.toNat % 0x10
  | _ => lead.toNat % 0x08

/-- The character of a leading byte and the bytes that follow it. -/
def character (lead : UInt8) (tail : List UInt8) : Char :=
  Char.ofNat (tail.foldl (fun code byte => code * 0x40 + byte.toNat % 0x40)
    (leadBits lead tail.length))

/-- What stands for bytes that are no character. -/
def replacement : Char := Char.ofNat 0xFFFD

/-- The characters in a list of bytes. -/
def decode : List UInt8 → List Char
  | [] => []
  | lead :: bytes =>
    match following lead with
    | none => replacement :: decode bytes
    | some ranges =>
      let count := matching ranges bytes
      let first := if count = ranges.length then character lead (bytes.take count) else replacement
      first :: decode (bytes.drop count)
termination_by bytes => bytes.length
decreasing_by
  · exact Nat.lt_succ_self _
  · exact Nat.lt_succ_of_le (by rw [List.length_drop]; exact Nat.sub_le _ _)

/-- A byte below 128 is a character by itself, whatever follows. -/
theorem decode_cons_of_lt {lead : UInt8} (ascii : lead < 0x80) (bytes : List UInt8) :
    decode (lead :: bytes) = Char.ofNat lead.toNat :: decode bytes := by
  rw [decode]
  simp [following, ascii, matching, character, leadBits]

end Utf8

end DotMatrix.Text
