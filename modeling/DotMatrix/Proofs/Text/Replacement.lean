import DotMatrix.Proofs.Text.Ascii
import Mathlib.Data.List.Forall2

/-!
# What stands for faults

Decoding is described without a table here, by the encoding of the single characters: a character
that is encoded at the front is kept, and where there is none, the longest beginning of a character
that is there, or else a single byte, becomes U+FFFD. This description leaves no choice, and it is
what `decode` does. In particular a text comes back from its encoding.

Results:
1. `utf8EncodeChar_eq_iff`: the table of leading bytes is that of the encoded characters.
2. `decode_cases`: what decoding does at the front of the bytes.
3. `replaced_iff`: the description holds of the decoded text and of no other.
4. `decode_flatMap`: a text comes back from its encoding.
-/

namespace DotMatrix.Text.Utf8

open String (utf8EncodeChar)

/-! ## The description -/

/-- The bytes are a beginning of an encoded character. -/
def Begins (bytes : List UInt8) : Prop := ∃ char, bytes <+: utf8EncodeChar char

/-- The part at the front of bytes that a single replacement stands for if no character is encoded
there. -/
structure MaximalPart (part bytes : List UInt8) : Prop where
  /-- It is at the front. -/
  front : part <+: bytes
  /-- It is a single byte or a beginning of a character. -/
  begins : part.length = 1 ∨ part ≠ [] ∧ Begins part
  /-- No longer beginning of a character is there. -/
  longest : ∀ longer, longer <+: bytes → Begins longer → longer.length ≤ part.length

/-- A text is what bytes become when the encoded characters among them are kept and each maximal
part of the others is replaced. -/
inductive Replaced : List UInt8 → List Char → Prop
  | done : Replaced [] []
  | kept (char : Char) {bytes : List UInt8} {text : List Char} (later : Replaced bytes text) :
      Replaced (utf8EncodeChar char ++ bytes) (char :: text)
  | fault {part bytes : List UInt8} {text : List Char}
      (none : ∀ char, ¬ utf8EncodeChar char <+: part ++ bytes)
      (maximal : MaximalPart part (part ++ bytes)) (later : Replaced bytes text) :
      Replaced (part ++ bytes) (replacement :: text)

theorem MaximalPart.ne_nil {part bytes : List UInt8} (maximal : MaximalPart part bytes) :
    part ≠ [] := by
  rcases maximal.begins with single | ⟨some, -⟩
  · exact List.ne_nil_of_length_eq_add_one single
  · exact some

theorem MaximalPart.length_le {part other bytes : List UInt8} (maximal : MaximalPart part bytes)
    (same : MaximalPart other bytes) : other.length ≤ part.length := by
  rcases same.begins with single | ⟨-, begins⟩
  · exact single ▸ List.length_pos_iff.2 maximal.ne_nil
  · exact maximal.longest other same.front begins

theorem MaximalPart.unique {part other bytes : List UInt8} (maximal : MaximalPart part bytes)
    (same : MaximalPart other bytes) : part = other :=
  (List.prefix_of_prefix_length_le maximal.front same.front (same.length_le maximal)).eq_of_length
    (Nat.le_antisymm (same.length_le maximal) (maximal.length_le same))

/-! ## Bytes in ranges -/

/-- Each byte lies in its range. -/
abbrev Fits : List ByteRange → List UInt8 → Prop :=
  List.Forall₂ fun range byte => range.contains byte = true

theorem matching_le_length (ranges : List ByteRange) (bytes : List UInt8) :
    matching ranges bytes ≤ ranges.length := by
  fun_induction matching ranges bytes with
  | case1 => simpa
  | case2 => simp
  | case3 => simp

theorem length_take_matching (ranges : List ByteRange) (bytes : List UInt8) :
    (bytes.take (matching ranges bytes)).length = matching ranges bytes := by
  fun_induction matching ranges bytes with
  | case1 range ranges byte bytes inside ih => rw [List.take_succ_cons, List.length_cons, ih]
  | case2 => rfl
  | case3 => rfl

/-- What is at the front of bytes and can be continued to fit the ranges is matched. -/
theorem length_le_matching {ranges : List ByteRange} {front later bytes : List UInt8}
    (fits : Fits ranges (front ++ later)) (starts : front <+: bytes) :
    front.length ≤ matching ranges bytes := by
  induction front generalizing ranges bytes with
  | nil => exact Nat.zero_le _
  | cons byte front ih =>
    obtain ⟨rest, rfl⟩ := starts
    cases fits with
    | cons inside fits =>
      rw [List.cons_append, matching, if_pos inside]
      exact Nat.succ_le_succ (ih fits (List.prefix_append _ _))

/-- What is matched can be continued to fit the ranges. -/
theorem exists_fits {ranges : List ByteRange}
    (inhabited : ∀ range ∈ ranges, range.contains range.least = true) (bytes : List UInt8) :
    ∃ later, Fits ranges (bytes.take (matching ranges bytes) ++ later) := by
  have leasts : ∀ {ranges : List ByteRange},
      (∀ range ∈ ranges, range.contains range.least = true) →
        Fits ranges (ranges.map (·.least)) := fun inhabited =>
    List.forall₂_map_right_iff.2 (List.forall₂_same.2 inhabited)
  fun_induction matching ranges bytes with
  | case1 range ranges byte bytes inside ih =>
    obtain ⟨later, fits⟩ := ih fun other member => inhabited other (.tail _ member)
    exact ⟨later, .cons inside fits⟩
  | case2 => exact ⟨_, leasts inhabited⟩
  | case3 => exact ⟨_, leasts inhabited⟩

theorem contains_least_of_following {lead : UInt8} {ranges : List ByteRange}
    (row : following lead = some ranges) :
    ∀ range ∈ ranges, range.contains range.least = true := by
  revert row
  fun_cases following lead <;> intro row <;> cases row <;> decide

theorem contains_iff {range : ByteRange} {byte : UInt8} :
    range.contains byte = true ↔
      range.least.toNat ≤ byte.toNat ∧ byte.toNat ≤ range.greatest.toNat := by
  simp only [ByteRange.contains, Bool.and_eq_true, decide_eq_true_eq, UInt8.le_iff_toNat_le]

/-! ## The table and the encoding -/

/-- The leading byte has a row in the table of which the other bytes lie in the ranges. -/
def Whole (lead : UInt8) (tail : List UInt8) : Prop :=
  ∃ ranges, following lead = some ranges ∧ Fits ranges tail

/-- A byte inside a character, as far as nothing narrows it. -/
def Continues (byte : UInt8) : Prop := 0x80 ≤ byte.toNat ∧ byte.toNat ≤ 0xBF

/-- The bytes of a character by their numbers: what is narrower than the number of bytes asks for
keeps out long forms, surrogates and too great numbers. -/
inductive WellFormed : UInt8 → List UInt8 → Prop
  | one {lead : UInt8} (small : lead.toNat < 0x80) : WellFormed lead []
  | two {lead second : UInt8} (least : 0xC2 ≤ lead.toNat) (greatest : lead.toNat < 0xE0)
      (last : Continues second) : WellFormed lead [second]
  | three {lead second third : UInt8} (least : 0xE0 ≤ lead.toNat) (greatest : lead.toNat < 0xF0)
      (short : lead.toNat = 0xE0 → 0xA0 ≤ second.toNat)
      (noSurrogate : lead.toNat = 0xED → second.toNat ≤ 0x9F)
      (middle : Continues second) (last : Continues third) : WellFormed lead [second, third]
  | four {lead second third fourth : UInt8} (least : 0xF0 ≤ lead.toNat)
      (greatest : lead.toNat ≤ 0xF4) (short : lead.toNat = 0xF0 → 0x90 ≤ second.toNat)
      (small : lead.toNat = 0xF4 → second.toNat ≤ 0x8F) (upper : Continues second)
      (lower : Continues third) (last : Continues fourth) :
      WellFormed lead [second, third, fourth]

theorem wellFormed_of_whole {lead : UInt8} {tail : List UInt8} (whole : Whole lead tail) :
    WellFormed lead tail := by
  obtain ⟨ranges, row, fits⟩ := whole
  have continues {range : ByteRange} {byte : UInt8} (inside : range.contains byte = true)
      (narrow : 0x80 ≤ range.least.toNat ∧ range.greatest.toNat ≤ 0xBF) : Continues byte := by
    obtain ⟨above, below⟩ := contains_iff.1 inside
    exact ⟨Nat.le_trans narrow.1 above, Nat.le_trans below narrow.2⟩
  have continuation {byte : UInt8} (inside : ByteRange.continuation.contains byte = true) :
      Continues byte := continues inside (by decide)
  by_cases low : lead < 0x80
  · rw [following, if_pos low] at row
    cases row
    cases fits
    exact .one (UInt8.lt_iff_toNat_lt.1 low)
  · cases follows_of_following (UInt8.not_lt.1 low) row with
    | one least greatest =>
      obtain _ | ⟨second, _ | _⟩ := fits
      exact .two least greatest (continuation second)
    | two least greatest narrow short noSurrogate =>
      obtain _ | ⟨second, _ | ⟨third, _ | _⟩⟩ := fits
      obtain ⟨above, below⟩ := contains_iff.1 second
      exact .three least greatest (fun same => Nat.le_trans (short same) above)
        (fun same => Nat.le_trans below (noSurrogate same)) (continues second narrow)
        (continuation third)
    | three least greatest narrow short small =>
      obtain _ | ⟨second, _ | ⟨third, _ | ⟨fourth, _ | _⟩⟩⟩ := fits
      obtain ⟨above, below⟩ := contains_iff.1 second
      exact .four least greatest (fun same => Nat.le_trans (short same) above)
        (fun same => Nat.le_trans below (small same)) (continues second narrow)
        (continuation third) (continuation fourth)

theorem whole_of_wellFormed {lead : UInt8} {tail : List UInt8} (formed : WellFormed lead tail) :
    Whole lead tail := by
  have continuation {byte : UInt8} (continues : Continues byte) :
      ByteRange.continuation.contains byte = true := contains_iff.2 continues
  unfold Whole following
  simp only [UInt8.lt_iff_toNat_lt, ← UInt8.toNat_inj, UInt8.reduceToNat]
  cases formed with
  | one small => exact ⟨[], if_pos small, .nil⟩
  | two least greatest last =>
    rw [if_neg (by omega), if_neg (by omega), if_pos greatest]
    exact ⟨_, rfl, .cons (continuation last) .nil⟩
  | @three second third least greatest short noSurrogate middle last =>
    obtain ⟨above, below⟩ := middle
    rw [if_neg (by omega), if_neg (by omega), if_neg (by omega)]
    have second {range : ByteRange} (above : range.least.toNat ≤ second.toNat)
        (below : second.toNat ≤ range.greatest.toNat) :
        Fits [range, .continuation] [second, third] :=
      .cons (contains_iff.2 ⟨above, below⟩) (.cons (continuation last) .nil)
    split_ifs with first surrogate
    · exact ⟨_, rfl, second (short first) below⟩
    · exact ⟨_, rfl, second above (noSurrogate surrogate)⟩
    · exact ⟨_, rfl, second above below⟩
  | @four second third fourth least greatest short small upper lower last =>
    obtain ⟨above, below⟩ := upper
    rw [if_neg (by omega), if_neg (by omega), if_neg (by omega), if_neg (by omega),
      if_neg (by omega), if_neg (by omega)]
    have second {range : ByteRange} (above : range.least.toNat ≤ second.toNat)
        (below : second.toNat ≤ range.greatest.toNat) :
        Fits [range, .continuation, .continuation] [second, third, fourth] :=
      .cons (contains_iff.2 ⟨above, below⟩)
        (.cons (continuation lower) (.cons (continuation last) .nil))
    split_ifs with first between final
    · exact ⟨_, rfl, second (short first) below⟩
    · exact ⟨_, rfl, second above below⟩
    · exact ⟨_, rfl, second above (small final)⟩
    · omega

/-! ## The encoding -/

theorem character_one (lead : UInt8) : character lead [] = Char.ofNat lead.toNat := rfl

theorem character_two (lead second : UInt8) : character lead [second] =
    Char.ofNat (lead.toNat % 0x20 * 0x40 + second.toNat % 0x40) := rfl

theorem character_three (lead second third : UInt8) : character lead [second, third] =
    Char.ofNat ((lead.toNat % 0x10 * 0x40 + second.toNat % 0x40) * 0x40 + third.toNat % 0x40) := rfl

theorem character_four (lead second third fourth : UInt8) :
    character lead [second, third, fourth] =
      Char.ofNat (((lead.toNat % 0x08 * 0x40 + second.toNat % 0x40) * 0x40 +
        third.toNat % 0x40) * 0x40 + fourth.toNat % 0x40) := rfl

/-- The character of well-formed bytes is the one that is encoded by them. -/
theorem utf8EncodeChar_character {lead : UInt8} {tail : List UInt8}
    (formed : WellFormed lead tail) : utf8EncodeChar (character lead tail) = lead :: tail := by
  have code {number : Nat} (valid : number.isValidChar) : (Char.ofNat number).val.toNat = number :=
    toNat_ofNat_of_valid valid
  have gives {number : Nat} (byte : UInt8) (same : number = byte.toNat) :
      UInt8.ofNat number = byte := by
    rw [same, UInt8.ofNat_toNat]
  unfold utf8EncodeChar
  cases formed with
  | one small =>
    simp only [character_one, code (.inl (Nat.lt_trans small (by decide)))]
    rw [if_pos (Nat.le_of_lt_succ small), gives lead rfl]
  | @two second least greatest last =>
    obtain ⟨above, below⟩ := last
    have valid : (lead.toNat % 0x20 * 0x40 + second.toNat % 0x40).isValidChar := .inl (by omega)
    simp only [character_two, code valid]
    rw [if_neg (by omega), if_pos (by omega), gives lead (by omega),
      gives second (by omega)]
  | @three second third least greatest short noSurrogate middle last =>
    obtain ⟨above, below⟩ := middle
    obtain ⟨above', below'⟩ := last
    have valid : ((lead.toNat % 0x10 * 0x40 + second.toNat % 0x40) * 0x40 +
        third.toNat % 0x40).isValidChar := by
      unfold Nat.isValidChar
      omega
    simp only [character_three, code valid]
    rw [if_neg (by omega), if_neg (by omega), if_pos (by omega), gives lead (by omega),
      gives second (by omega), gives third (by omega)]
  | @four second third fourth least greatest short small upper lower last =>
    obtain ⟨above, below⟩ := upper
    obtain ⟨above', below'⟩ := lower
    obtain ⟨above'', below''⟩ := last
    have valid : (((lead.toNat % 0x08 * 0x40 + second.toNat % 0x40) * 0x40 +
        third.toNat % 0x40) * 0x40 + fourth.toNat % 0x40).isValidChar := by
      unfold Nat.isValidChar
      omega
    simp only [character_four, code valid]
    rw [if_neg (by omega), if_neg (by omega), if_neg (by omega), gives lead (by omega),
      gives second (by omega), gives third (by omega), gives fourth (by omega)]

/-- Every character is that of some well-formed bytes. -/
theorem exists_wellFormed (char : Char) :
    ∃ lead tail, WellFormed lead tail ∧ character lead tail = char := by
  obtain ⟨number, valid, rfl⟩ : ∃ number : Nat, number.isValidChar ∧ Char.ofNat number = char :=
    ⟨char.toNat, char.valid, char.ofNat_toNat⟩
  have exists_byte (number : Nat) (small : number < 0x100) : ∃ byte : UInt8, byte.toNat = number :=
    ⟨.ofNat number, UInt8.toNat_ofNat_of_lt' small⟩
  unfold Nat.isValidChar at valid
  by_cases one : number < 0x80
  · obtain ⟨lead, rfl⟩ := exists_byte number (by omega)
    exact ⟨lead, [], .one one, rfl⟩
  -- The lowest six bits stand in the last byte, the next six in the one before.
  obtain ⟨last, low⟩ := exists_byte (number % 0x40 + 0x80) (by omega)
  have continues : Continues last := ⟨by omega, by omega⟩
  by_cases two : number < 0x800
  · obtain ⟨lead, high⟩ := exists_byte (number / 0x40 + 0xC0) (by omega)
    refine ⟨lead, [last], .two (by omega) (by omega) continues, ?_⟩
    rw [character_two]
    congr 1
    omega
  obtain ⟨third, middle⟩ := exists_byte (number / 0x40 % 0x40 + 0x80) (by omega)
  have continues' : Continues third := ⟨by omega, by omega⟩
  by_cases three : number < 0x10000
  · obtain ⟨lead, high⟩ := exists_byte (number / 0x1000 + 0xE0) (by omega)
    refine ⟨lead, [third, last], .three (by omega) (by omega) (by omega) (by omega) continues'
      continues, ?_⟩
    rw [character_three]
    congr 1
    omega
  · obtain ⟨second, upper⟩ := exists_byte (number / 0x1000 % 0x40 + 0x80) (by omega)
    obtain ⟨lead, high⟩ := exists_byte (number / 0x40000 + 0xF0) (by omega)
    refine ⟨lead, [second, third, last], .four (by omega) (by omega) (by omega) (by omega)
      ⟨by omega, by omega⟩ continues' continues, ?_⟩
    rw [character_four]
    congr 1
    omega

/-- The bytes of a row of the table are those of an encoded character. -/
theorem utf8EncodeChar_eq_iff {char : Char} {lead : UInt8} {tail : List UInt8} :
    utf8EncodeChar char = lead :: tail ↔ Whole lead tail ∧ character lead tail = char := by
  constructor
  · intro encoded
    obtain ⟨lead', tail', formed, rfl⟩ := exists_wellFormed char
    obtain ⟨rfl, rfl⟩ := List.cons.inj ((utf8EncodeChar_character formed).symm.trans encoded)
    exact ⟨whole_of_wellFormed formed, rfl⟩
  · rintro ⟨whole, rfl⟩
    exact utf8EncodeChar_character (wellFormed_of_whole whole)

theorem exists_whole (char : Char) :
    ∃ lead tail, utf8EncodeChar char = lead :: tail ∧ Whole lead tail ∧
      character lead tail = char := by
  have nonempty : utf8EncodeChar char ≠ [] := String.utf8EncodeChar_ne_nil
  obtain ⟨lead, tail, encoded⟩ := List.exists_cons_of_ne_nil nonempty
  exact ⟨lead, tail, encoded, utf8EncodeChar_eq_iff.1 encoded⟩

theorem begins_cons_iff {lead : UInt8} {front : List UInt8} :
    Begins (lead :: front) ↔ ∃ later, Whole lead (front ++ later) := by
  constructor
  · rintro ⟨char, starts⟩
    obtain ⟨first, tail, encoded, whole, -⟩ := exists_whole char
    rw [encoded] at starts
    obtain ⟨rfl, later, rfl⟩ := List.cons_prefix_cons.1 starts
    exact ⟨later, whole⟩
  · rintro ⟨later, whole⟩
    refine ⟨character lead (front ++ later), ?_⟩
    rw [utf8EncodeChar_eq_iff.2 ⟨whole, rfl⟩]
    exact List.cons_prefix_cons.2 ⟨rfl, List.prefix_append front later⟩

/-! ## What decoding does -/

/-- An encoded character at the front is kept. -/
theorem decode_append (char : Char) (bytes : List UInt8) :
    decode (utf8EncodeChar char ++ bytes) = char :: decode bytes := by
  obtain ⟨lead, tail, encoded, ⟨ranges, row, fits⟩, same⟩ := exists_whole char
  have whole : Fits ranges (tail ++ []) := (List.append_nil tail).symm ▸ fits
  have all : matching ranges (tail ++ bytes) = tail.length := by
    refine Nat.le_antisymm ?_ (length_le_matching whole (List.prefix_append _ _))
    exact fits.length_eq ▸ matching_le_length ranges _
  rw [encoded, List.cons_append, decode, row]
  simp only [all, fits.length_eq, if_true, List.take_left', List.drop_left', same]

section

variable {lead : UInt8} {bytes : List UInt8}

/-- A byte that starts no character is replaced by itself. -/
theorem maximalPart_of_none (row : following lead = none) :
    MaximalPart [lead] (lead :: bytes) := by
  refine ⟨⟨bytes, rfl⟩, .inl rfl, ?_⟩
  rintro (_ | ⟨first, front⟩) starts begins
  · exact Nat.zero_le _
  · obtain ⟨later, ranges, found, -⟩ := begins_cons_iff.1 begins
    obtain ⟨rfl, -⟩ := List.cons_prefix_cons.1 starts
    rw [row] at found
    cases found

theorem append_drop_matching (lead : UInt8) (ranges : List ByteRange) (bytes : List UInt8) :
    (lead :: bytes.take (matching ranges bytes)) ++ bytes.drop (matching ranges bytes) =
      lead :: bytes := by
  rw [List.cons_append, List.take_append_drop]

variable {ranges : List ByteRange}

/-- What is matched behind a leading byte is the longest beginning of a character. -/
theorem maximalPart_of_some (row : following lead = some ranges) :
    MaximalPart (lead :: bytes.take (matching ranges bytes)) (lead :: bytes) := by
  obtain ⟨later, fits⟩ := exists_fits (contains_least_of_following row) bytes
  have begins := begins_cons_iff.2 ⟨later, ranges, row, fits⟩
  refine ⟨⟨_, append_drop_matching lead ranges bytes⟩, .inr ⟨List.cons_ne_nil _ _, begins⟩, ?_⟩
  rintro (_ | ⟨first, front⟩) starts begins
  · exact Nat.zero_le _
  · obtain ⟨later, ranges', found, fits⟩ := begins_cons_iff.1 begins
    obtain ⟨rfl, starts'⟩ := List.cons_prefix_cons.1 starts
    cases row.symm.trans found
    rw [List.length_cons, List.length_cons, length_take_matching]
    exact Nat.succ_le_succ (length_le_matching fits starts')

/-- If all ranges are matched, a character is encoded there. -/
theorem exists_prefix_of_matching (row : following lead = some ranges)
    (all : matching ranges bytes = ranges.length) :
    ∃ char, utf8EncodeChar char <+: lead :: bytes := by
  obtain ⟨later, fits⟩ := exists_fits (contains_least_of_following row) bytes
  have complete : later = [] := by
    have lengths := fits.length_eq
    rw [List.length_append, length_take_matching, all] at lengths
    exact List.length_eq_zero_iff.1 (Nat.left_eq_add.1 lengths)
  rw [complete, List.append_nil] at fits
  refine ⟨character lead (bytes.take (matching ranges bytes)), ?_⟩
  rw [utf8EncodeChar_eq_iff.2 ⟨⟨ranges, row, fits⟩, rfl⟩]
  exact ⟨_, append_drop_matching lead ranges bytes⟩

/-- Where no character is encoded, what is replaced is the maximal part. -/
theorem decode_fault (none : ∀ char, ¬ utf8EncodeChar char <+: lead :: bytes) :
    ∃ part rest, lead :: bytes = part ++ rest ∧ MaximalPart part (lead :: bytes) ∧
      decode (lead :: bytes) = replacement :: decode rest := by
  rw [decode]
  cases row : following lead with
  | none => exact ⟨[lead], bytes, rfl, maximalPart_of_none row, rfl⟩
  | some ranges =>
    have short : matching ranges bytes ≠ ranges.length := fun all =>
      not_exists.2 none (exists_prefix_of_matching row all)
    refine ⟨_, _, (append_drop_matching lead ranges bytes).symm, maximalPart_of_some row, ?_⟩
    simp only [if_neg short]

end

/-- Bytes are decoded as the description says. -/
theorem replaced_decode (bytes : List UInt8) : Replaced bytes (decode bytes) := by
  -- A part may be of several bytes, so the induction is on how many are left.
  induction counted : bytes.length using Nat.strongRecOn generalizing bytes with
  | ind size ih =>
    have later {part rest : List UInt8} (some : part ≠ []) (parts : bytes = part ++ rest) :
        Replaced rest (decode rest) := by
      refine ih rest.length ?_ rest rfl
      rw [← counted, parts, List.length_append]
      exact Nat.lt_add_of_pos_left (List.length_pos_iff.2 some)
    by_cases found : ∃ char, utf8EncodeChar char <+: bytes
    · obtain ⟨char, rest, rfl⟩ := found
      rw [decode_append]
      exact .kept char (later String.utf8EncodeChar_ne_nil rfl)
    · cases bytes with
      | nil => rw [decode]; exact .done
      | cons lead bytes =>
        obtain ⟨part, rest, parts, maximal, decoded⟩ := decode_fault (not_exists.1 found)
        rw [decoded]
        rw [parts] at found maximal ⊢
        exact .fault (not_exists.1 found) maximal (later maximal.ne_nil parts)

/-- The decoded text is the only one that the description allows. -/
theorem replaced_iff {bytes : List UInt8} {text : List Char} :
    Replaced bytes text ↔ decode bytes = text := by
  constructor
  · intro replaced
    induction replaced with
    | done => rw [decode]
    | kept char later ih => rw [decode_append, ih]
    | @fault part bytes text none maximal later ih =>
      cases part with
      | nil => exact absurd rfl maximal.ne_nil
      | cons lead tail =>
        rw [List.cons_append] at none maximal ⊢
        obtain ⟨part, rest, parts, maximal', decoded⟩ := decode_fault none
        cases maximal.unique maximal'
        obtain rfl : bytes = rest := List.append_cancel_left (List.cons.inj parts).2
        rw [decoded, ih]
  · rintro rfl
    exact replaced_decode bytes

/-! ## Texts -/

theorem decode_flatMap (text : List Char) : decode (text.flatMap utf8EncodeChar) = text := by
  induction text with
  | nil => rw [List.flatMap_nil, decode]
  | cons char text ih => rw [List.flatMap_cons, decode_append, ih]

theorem toUTF8_toList (text : String) :
    text.toUTF8.data.toList = text.toList.flatMap utf8EncodeChar := by
  rw [String.toUTF8_eq_toByteArray, ← String.utf8Encode_toList, List.utf8Encode,
    List.toList_data_toByteArray]

theorem toUTF8_toList_of_ascii {text : String} (ascii : ∀ char ∈ text.toList, char.toNat < 0x80) :
    text.toUTF8.data.toList = text.toList.map asciiByte := by
  have encoded (char : Char) (member : char ∈ text.toList) :
      utf8EncodeChar char = [asciiByte char] :=
    if_pos (Nat.le_of_lt_succ (ascii char member))
  rw [toUTF8_toList, List.flatMap_congr encoded, List.map_eq_flatMap]

end DotMatrix.Text.Utf8
