import Climb.Expr.Outline
import Climb.Proofs.Number.DoubleText

/-! The texts of numbers tell numbers apart, and stand on one line. -/

namespace Climb

section

variable {layout : DigitLayout}

/-- Digits with a scale are written with a character that is no digit, in either layout. -/
theorem exists_mark_write (digits : Digits) :
    ∃ c ∈ layout.write digits, c = '.' ∨ c = 'e' := by
  unfold DigitLayout.write
  simp only
  -- A positional text has a point, and one with an exponent has its mark.
  split
  · obtain ⟨whole, fraction, parts, -⟩ := positionalChars_parts digits.point
      (decimalChars_ne_nil digits.whole) fun _ => isDigit_decimalChars
    exact ⟨'.', by simp [parts], .inl rfl⟩
  · exact ⟨'e', by simp [markedChars], .inr rfl⟩

end

/-- A double is written with a character that no whole number has. -/
theorem exists_mark_floatText {value : Float} (number : viewDouble value ≠ .nan) :
    ∃ c ∈ (floatText value).toList, isDigit c = false ∧ c ≠ '-' := by
  simp only [floatText, String.toList_ofList, floatChars]
  split
  · contradiction
  · rename_i negative view
    -- Infinity is told by its letters.
    exact ⟨'i', by cases negative <;> decide, by decide⟩
  · rename_i negative mantissa exponent view
    obtain ⟨c, member, mark⟩ : ∃ c ∈ (if mantissa = 0 then "0.0".toList
        else doubleLayout.write (shortestDigits mantissa exponent)), c = '.' ∨ c = 'e' := by
      split
      · exact ⟨'.', by decide, .inl rfl⟩
      · exact exists_mark_write _
    -- The mark stays where it is behind a sign.
    refine ⟨c, ?_, ?_⟩
    · split
      · exact List.mem_cons_of_mem _ member
      · exact member
    · rcases mark with rfl | rfl <;> decide

/-- A double is written with characters that are kept as they are. -/
theorem isBare_floatText {value : Float} (number : viewDouble value ≠ .nan) :
    ∀ c ∈ (floatText value).toList, IsBare c := by
  simp only [floatText, String.toList_ofList, floatChars]
  split
  · contradiction
  · rename_i negative view
    cases negative <;> simp [IsBare]
  · rename_i negative mantissa exponent view
    -- The sign is kept too, so only the unsigned text is looked at.
    have magnitude : ∀ c ∈ (if mantissa = 0 then "0.0".toList
        else doubleLayout.write (shortestDigits mantissa exponent)), IsBare c := by
      split
      · simp [IsBare]
      · exact (readsAs_write _ _).bare
    split
    · exact List.forall_mem_cons.2 ⟨by decide, magnitude⟩
    · exact magnitude

/-- A whole number is written with digits and a sign. -/
theorem mem_toString {value : Int} {c : Char} (member : c ∈ (toString value).toList) :
    isDigit c = true ∨ c = '-' := by
  -- The sign stands alone in front of the digits of the magnitude.
  rw [Int.toString_eq_repr, Int.repr_eq_if] at member
  split at member
  · rw [Nat.toList_repr] at member
    exact .inl (isDigit_of_mem_toDigits member)
  · rw [String.toList_append, List.mem_append, Nat.toList_repr] at member
    rcases member with sign | digit
    · exact .inr (by simpa using sign)
    · exact .inl (isDigit_of_mem_toDigits digit)

namespace Number

/-- A whole number, or a double that is a number. -/
def IsProper : Number → Prop
  | int _ => True
  | float value => viewDouble value ≠ .nan
  | bool _ => False

/-- The text of a whole number, if it is short enough to be written. -/
theorem outlineText_int {value : Int} {text : String}
    (given : (int value).outlineText = .ok text) : text = toString value := by
  simp only [outlineText, intText] at given
  split at given <;> cases given
  rfl

/-- No text is that of a whole number and that of a double. -/
theorem toString_ne_floatText {whole : Int} {value : Float} (number : viewDouble value ≠ .nan) :
    toString whole ≠ floatText value := by
  intro same
  -- The mark in the text of a double stands in no whole number.
  obtain ⟨c, member, other, sign⟩ := exists_mark_floatText number
  rw [← same] at member
  rcases mem_toString member with digit | minus
  · rw [other] at digit
    cases digit
  · exact sign minus

/-- Texts of whole numbers and of doubles tell them apart. -/
theorem outlineText_injective {one other : Number} {text : String} (first : one.IsProper)
    (second : other.IsProper) (oneText : one.outlineText = .ok text)
    (otherText : other.outlineText = .ok text) : one = other := by
  -- Two numbers of one kind are compared by what their texts are read as, and two of different
  -- kinds have no text in common.
  cases one with
  | bool value => exact first.elim
  | int one =>
    obtain rfl := outlineText_int oneText
    cases other with
    | bool value => exact second.elim
    | int other =>
      have same := outlineText_int otherText
      rw [Int.toString_eq_repr, Int.toString_eq_repr] at same
      rw [Int.repr_inj.1 same]
    | float other => exact absurd (Except.ok.inj otherText).symm (toString_ne_floatText second)
  | float one =>
    obtain rfl := Except.ok.inj oneText
    cases other with
    | bool value => exact second.elim
    | int other => exact absurd (outlineText_int otherText).symm (toString_ne_floatText first)
    | float other =>
      -- Both are read back from the one text.
      have read := readDouble_floatText second
      rw [show floatText other = floatText one from Except.ok.inj otherText,
        readDouble_floatText first] at read
      rw [Except.ok.inj read]

/-- The text of a number stands on one line. -/
theorem newline_not_mem_outlineText {number : Number} {text : String} (proper : number.IsProper)
    (given : number.outlineText = .ok text) : '\n' ∉ text.toList := by
  intro member
  -- The line break is neither a digit nor a sign, and is not kept as it is.
  cases number with
  | bool value => exact proper
  | int value =>
    obtain rfl := outlineText_int given
    rcases mem_toString member with digit | sign
    · exact absurd digit (by decide)
    · exact absurd sign (by decide)
  | float value =>
    obtain rfl := Except.ok.inj given
    exact absurd (isBare_floatText proper _ member) (by decide)

end Number

end Climb
