import DotMatrix.Text.Utf8

/-!
# ASCII among other bytes

Every byte of a character above U+007F is at least 128, and so is the number of every such character
and of what stands for a fault. So the ASCII characters of a decoded text are the bytes below 128, in
their order, whatever stands between them.

Results:
1. `decode_cons_of_le`: what a byte from 128 on begins ends before the next byte below 128.
2. `infix_decode_iff`: an ASCII text occurs in the decoded text iff its bytes occur in the bytes.
-/

namespace DotMatrix.Text.Utf8

/-! ## Characters above U+007F -/

theorem toNat_ofNat_of_valid {code : Nat} (valid : code.isValidChar) :
    (Char.ofNat code).toNat = code := by
  rw [Char.ofNat, dif_pos valid]
  rfl

theorem le_toNat_ofNat {code : Nat} (high : 0x80 ≤ code) (valid : code.isValidChar) :
    0x80 ≤ (Char.ofNat code).toNat := by
  rwa [toNat_ofNat_of_valid valid]

/-- The rows of the table of leading bytes from 128 on, by the number of bytes that follow: the
range of the first of them is what keeps out long forms, surrogates and too great numbers. -/
inductive Follows (lead : UInt8) : List ByteRange → Prop
  | one (least : 0xC2 ≤ lead.toNat) (greatest : lead.toNat < 0xE0) : Follows lead [.continuation]
  | two {second : ByteRange} (least : 0xE0 ≤ lead.toNat) (greatest : lead.toNat < 0xF0)
      (inside : 0x80 ≤ second.least.toNat ∧ second.greatest.toNat ≤ 0xBF)
      (short : lead.toNat = 0xE0 → 0xA0 ≤ second.least.toNat)
      (noSurrogate : lead.toNat = 0xED → second.greatest.toNat ≤ 0x9F) :
      Follows lead [second, .continuation]
  | three {second : ByteRange} (least : 0xF0 ≤ lead.toNat) (greatest : lead.toNat ≤ 0xF4)
      (inside : 0x80 ≤ second.least.toNat ∧ second.greatest.toNat ≤ 0xBF)
      (short : lead.toNat = 0xF0 → 0x90 ≤ second.least.toNat)
      (small : lead.toNat = 0xF4 → second.greatest.toNat ≤ 0x8F) :
      Follows lead [second, .continuation, .continuation]

theorem follows_of_following {lead : UInt8} {ranges : List ByteRange} (high : 0x80 ≤ lead)
    (row : following lead = some ranges) : Follows lead ranges := by
  revert row
  fun_cases following lead <;> intro row <;> cases row <;>
    simp only [UInt8.lt_iff_toNat_lt, UInt8.le_iff_toNat_le, ← UInt8.toNat_inj,
      UInt8.reduceToNat] at *
  · omega
  · exact .one (by omega) (by omega)
  · exact .two (by omega) (by omega) (by decide) (fun _ => by decide) (by omega)
  · exact .two (by omega) (by omega) (by decide) (by omega) fun _ => by decide
  · exact .two (by omega) (by omega) (by decide) (by omega) (by omega)
  · exact .three (by omega) (by omega) (by decide) (fun _ => by decide) (by omega)
  · exact .three (by omega) (by omega) (by decide) (by omega) (by omega)
  · exact .three (by omega) (by omega) (by decide) (by omega) fun _ => by decide

/-- Bytes that match all of the ranges: the first one lies in the first range. -/
theorem matching_eq_succ {range : ByteRange} {ranges : List ByteRange} {bytes : List UInt8}
    (all : matching (range :: ranges) bytes = ranges.length + 1) :
    ∃ byte rest, bytes = byte :: rest ∧ range.least.toNat ≤ byte.toNat ∧
      byte.toNat ≤ range.greatest.toNat ∧ matching ranges rest = ranges.length := by
  cases bytes with
  | nil => simp [matching] at all
  | cons byte rest =>
    rw [matching] at all
    split at all
    · next inside =>
      simp only [ByteRange.contains, Bool.and_eq_true, decide_eq_true_eq,
        UInt8.le_iff_toNat_le] at inside
      exact ⟨byte, rest, rfl, inside.1, inside.2, Nat.succ.inj all⟩
    · omega

/-- The number of the character that starts with a byte from 128 on is at least 128. -/
theorem le_toNat_character {lead : UInt8} {ranges : List ByteRange} {bytes : List UInt8}
    (follows : Follows lead ranges) (all : matching ranges bytes = ranges.length) :
    0x80 ≤ (character lead (bytes.take ranges.length)).toNat := by
  cases follows with
  | one least greatest =>
    obtain ⟨second, rest, rfl, -⟩ := matching_eq_succ all
    apply le_toNat_ofNat <;>
      simp only [leadBits, List.length_cons, List.length_nil, List.take_succ_cons, List.take_zero,
        List.foldl_cons, List.foldl_nil, Nat.isValidChar] <;>
      omega
  | two least greatest inside short noSurrogate =>
    obtain ⟨second, rest, rfl, above, below, all⟩ := matching_eq_succ all
    obtain ⟨third, rest, rfl, -⟩ := matching_eq_succ all
    apply le_toNat_ofNat <;>
      simp only [leadBits, List.length_cons, List.length_nil, List.take_succ_cons, List.take_zero,
        List.foldl_cons, List.foldl_nil, Nat.isValidChar] <;>
      omega
  | three least greatest inside short small =>
    obtain ⟨second, rest, rfl, above, below, all⟩ := matching_eq_succ all
    obtain ⟨third, rest, rfl, -, -, all⟩ := matching_eq_succ all
    obtain ⟨fourth, rest, rfl, -⟩ := matching_eq_succ all
    apply le_toNat_ofNat <;>
      simp only [leadBits, List.length_cons, List.length_nil, List.take_succ_cons, List.take_zero,
        List.foldl_cons, List.foldl_nil, Nat.isValidChar] <;>
      omega

/-! ## Where characters end -/

theorem le_of_mem_take_matching {ranges : List ByteRange}
    (inside : ∀ range ∈ ranges, 0x80 ≤ range.least) (bytes : List UInt8) :
    ∀ byte ∈ bytes.take (matching ranges bytes), 0x80 ≤ byte := by
  fun_induction matching ranges bytes with
  | case1 range ranges byte bytes contained ih =>
    have later := ih fun range member => inside range (List.mem_cons_of_mem _ member)
    have first := inside range List.mem_cons_self
    simp only [ByteRange.contains, Bool.and_eq_true, decide_eq_true_eq] at contained
    intro other member
    rcases List.mem_cons.1 member with rfl | member
    · exact UInt8.le_trans first contained.1
    · exact later other member
  | case2 => simp
  | case3 => simp

theorem Follows.le_least {lead : UInt8} {ranges : List ByteRange} (follows : Follows lead ranges) :
    ∀ range ∈ ranges, 0x80 ≤ range.least := by
  have continues : 0x80 ≤ ByteRange.continuation.least := by decide
  cases follows with
  | one => simpa using continues
  | @two second _ _ inside | @three second _ _ inside =>
    have least : 0x80 ≤ second.least := UInt8.le_iff_toNat_le.2 inside.1
    simp [continues, least]

/-- What a byte from 128 on begins is one character, no ASCII, and ends before the next byte below
128. -/
theorem decode_cons_of_le {lead : UInt8} (high : 0x80 ≤ lead) (bytes : List UInt8) :
    ∃ first passed rest, bytes = passed ++ rest ∧
      decode (lead :: bytes) = first :: decode rest ∧
      0x80 ≤ first.toNat ∧ ∀ byte ∈ passed, 0x80 ≤ byte := by
  have faulty : 0x80 ≤ replacement.toNat := by decide
  have nothing (byte : UInt8) (member : byte ∈ []) : 0x80 ≤ byte := absurd member List.not_mem_nil
  rw [decode]
  split
  · exact ⟨replacement, [], bytes, rfl, rfl, faulty, nothing⟩
  · next ranges row =>
    have follows := follows_of_following high row
    refine ⟨_, _, _, (List.take_append_drop (matching ranges bytes) bytes).symm, rfl, ?_,
      le_of_mem_take_matching follows.le_least bytes⟩
    split
    · next all =>
      rw [all]
      exact le_toNat_character follows all
    · exact faulty

/-! ## ASCII texts -/

/-- The byte of an ASCII character. -/
def asciiByte (char : Char) : UInt8 := .ofNat char.toNat

theorem toNat_asciiByte {char : Char} (ascii : char.toNat < 0x80) :
    (asciiByte char).toNat = char.toNat :=
  UInt8.toNat_ofNat_of_lt' (Nat.lt_trans ascii (by decide))

theorem ofNat_toNat_eq_iff {char : Char} {byte : UInt8} (ascii : char.toNat < 0x80)
    (low : byte < 0x80) : char = Char.ofNat byte.toNat ↔ asciiByte char = byte := by
  have valid : byte.toNat.isValidChar := .inl (Nat.lt_trans (UInt8.lt_iff_toNat_lt.1 low) (by decide))
  constructor
  · intro same
    rw [same, asciiByte, toNat_ofNat_of_valid valid, UInt8.ofNat_toNat]
  · rintro rfl
    rw [toNat_asciiByte ascii, Char.ofNat_toNat]

/-- An ASCII text does not start with a byte from 128 on. -/
theorem not_prefix_of_le {char : Char} {needle : List Char} (ascii : char.toNat < 0x80)
    {byte : UInt8} (high : 0x80 ≤ byte) (bytes : List UInt8) :
    ¬ (char :: needle).map asciiByte <+: byte :: bytes := by
  intro starts
  obtain ⟨rfl, -⟩ := List.cons_prefix_cons.1 starts
  have number := UInt8.le_iff_toNat_le.1 high
  rw [toNat_asciiByte ascii] at number
  exact Nat.not_lt_of_le number ascii

theorem prefix_decode_iff {needle : List Char} (ascii : ∀ char ∈ needle, char.toNat < 0x80)
    (bytes : List UInt8) : needle <+: decode bytes ↔ needle.map asciiByte <+: bytes := by
  induction needle generalizing bytes with
  | nil => simp
  | cons char needle ih =>
    have small : char.toNat < 0x80 := ascii char List.mem_cons_self
    cases bytes with
    | nil => simp [decode]
    | cons lead bytes =>
      by_cases low : lead < 0x80
      · rw [decode_cons_of_lt low, List.map_cons, List.cons_prefix_cons, List.cons_prefix_cons,
          ofNat_toNat_eq_iff small low, ih fun other member => ascii other (.tail _ member)]
      · have high : 0x80 ≤ lead := UInt8.not_lt.1 low
        obtain ⟨first, passed, rest, -, decoded, above, -⟩ := decode_cons_of_le high bytes
        refine iff_of_false (fun starts => ?_) (not_prefix_of_le small high bytes)
        rw [decoded, List.cons_prefix_cons] at starts
        exact Nat.not_lt_of_le above (starts.1 ▸ small)

/-- Bytes from 128 on in front of others neither hold an ASCII text nor begin one. -/
theorem infix_append_iff_of_le {char : Char} {needle : List Char} (ascii : char.toNat < 0x80)
    {passed : List UInt8} (high : ∀ byte ∈ passed, 0x80 ≤ byte) (bytes : List UInt8) :
    (char :: needle).map asciiByte <:+: passed ++ bytes ↔
      (char :: needle).map asciiByte <:+: bytes := by
  induction passed with
  | nil => rfl
  | cons byte passed ih =>
    have absent : ¬ (char :: needle).map asciiByte <+: byte :: (passed ++ bytes) :=
      not_prefix_of_le ascii (high byte List.mem_cons_self) _
    rw [List.cons_append, List.infix_cons_iff, ih fun other member => high other (.tail _ member)]
    exact or_iff_right absent

/-- An ASCII text occurs in what bytes are decoded to if and only if its bytes occur in them,
whatever faults there are. -/
theorem infix_decode_iff {needle : List Char} (ascii : ∀ char ∈ needle, char.toNat < 0x80)
    (bytes : List UInt8) : needle <:+: decode bytes ↔ needle.map asciiByte <:+: bytes := by
  cases needle with
  | nil => simp
  | cons char needle =>
    have small : char.toNat < 0x80 := ascii char List.mem_cons_self
    -- A character may take several bytes, so the induction is on how many are left.
    induction counted : bytes.length using Nat.strongRecOn generalizing bytes with
    | ind size ih =>
      cases bytes with
      | nil => simp [decode]
      | cons lead bytes =>
        have starts := prefix_decode_iff ascii (lead :: bytes)
        rw [List.infix_cons_iff, ← starts]
        by_cases low : lead < 0x80
        · have shorter : bytes.length < size := by simp [← counted]
          rw [decode_cons_of_lt low, List.infix_cons_iff]
          exact or_congr_right (ih bytes.length shorter bytes rfl)
        · have high : 0x80 ≤ lead := UInt8.not_lt.1 low
          obtain ⟨first, passed, rest, rfl, decoded, -, above⟩ := decode_cons_of_le high bytes
          have shorter : rest.length < size := by
            rw [← counted, List.length_cons, List.length_append]
            omega
          rw [decoded, List.infix_cons_iff, infix_append_iff_of_le small above]
          exact or_congr_right (ih rest.length shorter rest rfl)

end DotMatrix.Text.Utf8
