import DotMatrix.Text.Numeral
import Mathlib.Data.Nat.Digits.Defs

/-!
# What a numeral denotes

A numeral is an optional plus sign and one digit or more, and denotes the number that its digits
make in base ten, however many zeros it begins with. Reading gives up as soon as the number so far
is past the limit; more digits never make it smaller, so then the whole number is past it as well.

Results:
1. `continueFrom_iff`: what is read from digits that follow others.
2. `parse_iff`: what is read from a text.
-/

namespace DotMatrix.Text.Numeral

/-- The number that digits make in base ten. -/
def value (digits : List Char) : ℕ :=
  Nat.ofDigits 10 (digits.reverse.map fun digit => digit.toNat - '0'.toNat)

/-- A text is an optional plus sign and one ASCII digit or more, which make the number. -/
inductive Denotes (text : String) : ℕ → Prop
  | intro {digits : List Char} (some : digits ≠ []) (all : ∀ digit ∈ digits, digit.isDigit = true)
      (shape : text.toList = digits ∨ text.toList = '+' :: digits) : Denotes text (value digits)

/-! ## Digits -/

theorem value_cons (digit : Char) (digits : List Char) :
    value (digit :: digits) = (digit.toNat - '0'.toNat) * 10 ^ digits.length + value digits := by
  rw [value, List.reverse_cons, List.map_append, Nat.ofDigits_append, List.length_map,
    List.length_reverse, List.map_singleton, Nat.ofDigits_singleton, ← value]
  ring

theorem digit?_eq (digit : Char) :
    digit? digit = if digit.isDigit = true then some (digit.toNat - '0'.toNat) else none := by
  have same : digit.isDigit = true ↔ '0' ≤ digit ∧ digit ≤ '9' := by
    simp only [Char.isDigit, Bool.and_eq_true, decide_eq_true_eq, Char.le_def, ge_iff_le]
  rw [digit?]
  simp only [same]

/-- What more digits make of a number. -/
theorem continued_cons (before : ℕ) (digit : Char) (digits : List Char) :
    before * 10 ^ (digit :: digits).length + value (digit :: digits) =
      (10 * before + (digit.toNat - '0'.toNat)) * 10 ^ digits.length + value digits := by
  rw [List.length_cons, value_cons]
  ring

theorem continueFrom_iff {limit before number : ℕ} {digits : List Char} (start : before ≤ limit) :
    continueFrom limit before digits = .ok number ↔
      (∀ digit ∈ digits, digit.isDigit = true) ∧
        before * 10 ^ digits.length + value digits = number ∧ number ≤ limit := by
  induction digits generalizing before with
  | nil =>
    have nothing : before * 10 ^ ([] : List Char).length + value [] = before := by simp [value]
    rw [continueFrom, nothing, Except.ok.injEq]
    constructor
    · rintro rfl
      exact ⟨nofun, rfl, start⟩
    · exact fun read => read.2.1
  | cons digit digits ih =>
    rw [continueFrom, digit?_eq, List.forall_mem_cons, continued_cons]
    by_cases decimal : digit.isDigit = true
    · rw [if_pos decimal]
      dsimp only
      split
      case isTrue within => rw [ih within, and_iff_right decimal]
      case isFalse past =>
        refine iff_of_false nofun ?_
        rintro ⟨-, rfl, within⟩
        have grows : 10 * before + (digit.toNat - '0'.toNat) ≤
            (10 * before + (digit.toNat - '0'.toNat)) * 10 ^ digits.length :=
          Nat.le_mul_of_pos_right _ (Nat.pow_pos (by decide))
        exact past (grows.trans ((Nat.le_add_right _ _).trans within))
    · rw [if_neg decimal]
      exact iff_of_false nofun fun read => decimal read.1.1

/-! ## Texts -/

theorem ofDigits_iff {limit number : ℕ} {digits : List Char} :
    ofDigits limit digits = .ok number ↔
      digits ≠ [] ∧ (∀ digit ∈ digits, digit.isDigit = true) ∧ value digits = number ∧
        number ≤ limit := by
  cases digits with
  | nil =>
    have fails : ofDigits limit [] ≠ .ok number := by
      intro read
      cases read
    exact iff_of_false fails fun read => read.1 rfl
  | cons digit digits =>
    have some : digit :: digits ≠ [] := List.cons_ne_nil digit digits
    rw [ofDigits, continueFrom_iff (Nat.zero_le limit), Nat.zero_mul, Nat.zero_add,
      and_iff_right some]
    exact some

/-- A text is read if and only if it is a numeral of a number within the limit. -/
theorem parse_iff {limit number : ℕ} {text : String} :
    parse limit text = .ok number ↔ Denotes text number ∧ number ≤ limit := by
  constructor
  · intro read
    unfold parse at read
    split at read
    case h_1 => cases read
    case h_2 digits signed =>
      obtain ⟨some, all, rfl, within⟩ := ofDigits_iff.1 read
      exact ⟨.intro some all (.inr signed), within⟩
    case h_3 =>
      obtain ⟨some, all, rfl, within⟩ := ofDigits_iff.1 read
      exact ⟨.intro some all (.inl rfl), within⟩
  · rintro ⟨@⟨digits, some, all, shape⟩, within⟩
    have read : ofDigits limit digits = .ok (value digits) :=
      ofDigits_iff.2 ⟨some, all, rfl, within⟩
    unfold parse
    rcases shape with plain | signed
    · split
      case h_1 empty => exact absurd (plain.symm.trans empty) some
      case h_2 rest signed =>
        -- A plus sign is no digit.
        have first : '+' ∈ digits := plain ▸ signed ▸ List.mem_cons_self
        exact absurd (all '+' first) (by decide)
      case h_3 => rw [plain, read]
    · rw [signed]
      exact read

theorem Denotes.unique {text : String} {number other : ℕ} (denotes : Denotes text number)
    (same : Denotes text other) : number = other := by
  have read := parse_iff.2 ⟨denotes, Nat.le_max_left number other⟩
  have read' := parse_iff.2 ⟨same, Nat.le_max_right number other⟩
  exact Except.ok.inj (read.symm.trans read')

end DotMatrix.Text.Numeral
