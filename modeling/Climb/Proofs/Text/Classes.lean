import Climb.Text.Blank
import Climb.Text.Letter
import Climb.Text.Numeral

/-! Classes of characters: their runs, and that letters, digits and white space do not meet. -/

namespace Climb

/-- A point that is found in some ranges lies in one of them. -/
theorem mem_of_inRanges {ranges : List (Nat × Nat)} {point : Nat}
    (found : inRanges ranges point = true) :
    ∃ range ∈ ranges, range.1 ≤ point ∧ point ≤ range.2 := by
  induction ranges with
  | nil => simp [inRanges] at found
  | cons range rest ih =>
    obtain ⟨low, high⟩ := range
    simp only [inRanges] at found
    -- The search stops early before a range that starts behind the point.
    split at found
    · simp at found
    · split at found
      · rename_i above below
        exact ⟨(low, high), List.mem_cons_self, Nat.not_lt.1 above, below⟩
      · obtain ⟨range, member, inside⟩ := ih found
        exact ⟨range, List.mem_cons_of_mem _ member, inside⟩

/-- No letter is white space. -/
theorem isBlank_of_isLetter {c : Char} (letter : isLetter c = true) : isBlank c = false := by
  -- The ranges of the two classes do not meet.
  have apart : ∀ blank ∈ blankRanges, ∀ range ∈ letterRanges,
      blank.2 < range.1 ∨ range.2 < blank.1 := by decide +kernel
  rw [Bool.eq_false_iff]
  intro blank
  obtain ⟨one, oneMember, oneLow, oneHigh⟩ := mem_of_inRanges blank
  obtain ⟨other, otherMember, otherLow, otherHigh⟩ := mem_of_inRanges letter
  have := apart one oneMember other otherMember
  omega

/-- Letters lie behind the digits and the punctuation of ASCII. -/
theorem toNat_of_isLetter {c : Char} (letter : isLetter c = true) : 0x41 ≤ c.toNat := by
  have above : ∀ range ∈ letterRanges, 0x41 ≤ range.1 := by decide +kernel
  obtain ⟨range, member, low, -⟩ := mem_of_inRanges letter
  exact Nat.le_trans (above range member) low

/-- A digit is one by its code point. -/
theorem isDigit_iff {c : Char} : isDigit c = true ↔ 0x30 ≤ c.toNat ∧ c.toNat ≤ 0x39 := by
  simp only [isDigit, Bool.and_eq_true, decide_eq_true_eq]
  rfl

/-- No digit is white space. -/
theorem isBlank_of_isDigit {c : Char} (digit : isDigit c = true) : isBlank c = false := by
  -- The digits lie between two ranges of white space.
  have apart : ∀ blank ∈ blankRanges, blank.2 < 0x30 ∨ 0x39 < blank.1 := by decide
  have range := isDigit_iff.1 digit
  rw [Bool.eq_false_iff]
  intro blank
  obtain ⟨one, member, low, high⟩ := mem_of_inRanges blank
  have := apart one member
  omega

/-- No numeral of whatever script is white space. -/
theorem isBlank_of_isNumeral {c : Char} (numeral : isNumeral c = true) : isBlank c = false := by
  -- The ranges of the two classes do not meet.
  have apart : ∀ blank ∈ blankRanges, ∀ range ∈ numeralRanges,
      blank.2 < range.1 ∨ range.2 < blank.1 := by decide +kernel
  rw [Bool.eq_false_iff]
  intro blank
  obtain ⟨one, oneMember, oneLow, oneHigh⟩ := mem_of_inRanges blank
  obtain ⟨other, otherMember, otherLow, otherHigh⟩ := mem_of_inRanges numeral
  have := apart one oneMember other otherMember
  omega

/-- A run of characters of one class ends where a text starts whose first character, if there is
one, is outside the class. -/
theorem takeWhile_append_stop {holds : Char → Bool} {word rest : List Char}
    (inside : ∀ c ∈ word, holds c = true) (stop : ∀ c ∈ rest.head?, holds c = false) :
    (word ++ rest).takeWhile holds = word := by
  have none : rest.takeWhile holds = [] := by
    cases rest with
    | nil => rfl
    | cons c others => simp [stop c rfl]
  rw [List.takeWhile_append_of_pos inside, none, List.append_nil]

end Climb
