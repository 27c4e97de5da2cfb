import DotMatrix.Text.Blank
import Mathlib.Data.List.DropRight
import Mathlib.Data.List.Forall2

/-!
# Words in texts

Settings are given as words with blanks around them, in capitals or small letters.

Results:
1. `strips_iff`: a text has one word between the blanks at its ends, and trimming finds it.
2. `sameWord_iff`: words agree in small letters iff they differ in the case of ASCII letters only.
-/

namespace DotMatrix.Text

/-! ## Blanks at the ends -/

/-- A text is a word between blanks, and the word neither begins nor ends with one. -/
structure Strips (text word : String) : Prop where
  around : ∃ before after : List Char, text.toList = before ++ word.toList ++ after ∧
    (∀ char ∈ before, isBlank char = true) ∧ ∀ char ∈ after, isBlank char = true
  first : ∀ char ∈ word.toList.head?, ¬ isBlank char = true
  last : ∀ char ∈ word.toList.getLast?, ¬ isBlank char = true

/-- Blanks in front of what does not begin with one. -/
theorem dropWhile_append {blanks rest : List Char} (all : ∀ char ∈ blanks, isBlank char = true)
    (first : ∀ char ∈ rest.head?, ¬ isBlank char = true) :
    (blanks ++ rest).dropWhile isBlank = rest := by
  rw [List.dropWhile_append_of_pos all]
  cases rest with
  | nil => rfl
  | cons char rest => exact List.dropWhile_cons_of_neg (first char rfl)

theorem trimChars_append {before word after : List Char}
    (front : ∀ char ∈ before, isBlank char = true) (back : ∀ char ∈ after, isBlank char = true)
    (first : ∀ char ∈ word.head?, ¬ isBlank char = true)
    (last : ∀ char ∈ word.getLast?, ¬ isBlank char = true) :
    trimChars (before ++ word ++ after) = word := by
  have back' : ∀ char ∈ after.reverse, isBlank char = true :=
    fun char member => back char (List.mem_reverse.1 member)
  have last' : ∀ char ∈ word.reverse.head?, ¬ isBlank char = true := by
    rwa [← List.getLast?_eq_head?_reverse]
  cases word with
  | nil =>
    have nothing : (before ++ [] ++ after).dropWhile isBlank = [] := by
      rw [List.append_nil, List.dropWhile_append_of_pos front, List.dropWhile_eq_nil_iff]
      exact back
    rw [trimChars, nothing]
    rfl
  | cons char word =>
    have fronted :
        (before ++ (char :: word) ++ after).dropWhile isBlank = char :: word ++ after := by
      rw [List.append_assoc]
      exact dropWhile_append front first
    rw [trimChars, fronted, List.reverse_append, dropWhile_append back' last', List.reverse_reverse]

theorem strips_trim (text : String) : Strips text (trim text) := by
  have word : (trim text).toList = (text.toList.dropWhile isBlank).rdropWhile isBlank :=
    String.toList_ofList
  refine ⟨⟨text.toList.takeWhile isBlank, (text.toList.dropWhile isBlank).rtakeWhile isBlank,
    ?_, fun char => List.mem_takeWhile_imp, fun char => List.mem_rtakeWhile_imp⟩, ?_, ?_⟩
  · rw [word, List.append_assoc, List.rdropWhile_append_rtakeWhile, List.takeWhile_append_dropWhile]
  · intro char head
    rw [word] at head
    have dropped := List.head?_dropWhile_not isBlank text.toList
    obtain ⟨rest, parts⟩ := List.rdropWhile_prefix isBlank (text.toList.dropWhile isBlank)
    rw [← parts, List.head?_append, head] at dropped
    exact ne_true_of_eq_false dropped
  · intro char last
    rw [word] at last
    have some := List.ne_nil_of_mem (List.mem_of_getLast? last)
    rw [List.getLast?_eq_some_getLast some] at last
    exact Option.some.inj last ▸ List.rdropWhile_last_not isBlank _ some

theorem strips_iff {text word : String} : Strips text word ↔ trim text = word := by
  constructor
  · rintro ⟨⟨before, after, parts, front, back⟩, first, last⟩
    rw [trim, parts, trimChars_append front back first last, String.ofList_toList]
  · rintro rfl
    exact strips_trim text

/-! ## Capitals -/

/-- The characters are the same, or the same ASCII letter once as a capital. -/
inductive SameLetter : Char → Char → Prop
  | same (char : Char) : SameLetter char char
  | capital {capital small : Char} (letter : capital.isUpper = true)
      (number : small.toNat = capital.toNat + 32) : SameLetter capital small
  | small {capital small : Char} (letter : capital.isUpper = true)
      (number : small.toNat = capital.toNat + 32) : SameLetter small capital

/-- The words differ in the case of ASCII letters only. -/
def SameWord (word other : String) : Prop := List.Forall₂ SameLetter word.toList other.toList

theorem isUpper_iff {char : Char} : char.isUpper = true ↔ 65 ≤ char.toNat ∧ char.toNat ≤ 90 :=
  decide_eq_true_iff.trans (and_congr UInt32.le_iff_toNat_le UInt32.le_iff_toNat_le)

theorem toNat_toLower (char : Char) :
    char.toLower.toNat = if char.isUpper = true then char.toNat + 32 else char.toNat := by
  by_cases letter : char.isUpper = true
  · have small := (isUpper_iff.1 letter).2
    have bounds : char.val ≥ 'A'.val ∧ char.val ≤ 'Z'.val := decide_eq_true_iff.1 letter
    have lower : char.toLower = _ := dif_pos bounds
    rw [if_pos letter, lower]
    exact Nat.mod_eq_of_lt (Nat.lt_of_le_of_lt (Nat.add_le_add_right small 32) (by decide))
  · have bounds : ¬ (char.val ≥ 'A'.val ∧ char.val ≤ 'Z'.val) := mt decide_eq_true_iff.2 letter
    have lower : char.toLower = char := dif_neg bounds
    rw [if_neg letter, lower]

theorem toLower_eq_toLower_iff {char other : Char} :
    char.toLower = other.toLower ↔ SameLetter char other := by
  rw [← Char.toNat_inj, toNat_toLower, toNat_toLower]
  constructor
  · intro same
    split at same <;> split at same
    · exact Char.toNat_inj.1 (Nat.add_right_cancel same) ▸ .same char
    · exact .capital ‹_› same.symm
    · exact .small ‹_› same
    · exact Char.toNat_inj.1 same ▸ .same char
  · have small {capital small : Char} (letter : capital.isUpper = true)
        (number : small.toNat = capital.toNat + 32) : ¬ small.isUpper = true := by
      rw [isUpper_iff] at letter ⊢
      omega
    rintro (_ | ⟨letter, number⟩ | ⟨letter, number⟩)
    · rfl
    · rw [if_pos letter, if_neg (small letter number), number]
    · rw [if_pos letter, if_neg (small letter number), number]

theorem toList_toLower (word : String) : word.toLower.toList = word.toList.map Char.toLower :=
  String.toList_map

theorem sameWord_iff {word other : String} :
    SameWord word other ↔ word.toLower = other.toLower := by
  rw [← String.toList_inj, toList_toLower, toList_toLower, ← List.forall₂_eq_eq_eq,
    List.forall₂_map_left_iff, List.forall₂_map_right_iff]
  simp only [toLower_eq_toLower_iff, SameWord]

end DotMatrix.Text
