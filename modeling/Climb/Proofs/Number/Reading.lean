import Mathlib.Data.List.TakeWhile
import Climb.Number.Basic
import Climb.Number.Reading
import Climb.Proofs.Text.Classes

/-! Whole numbers from their digits: what digits are read as, and which digits a number has. -/

namespace Climb

/-- Digits have the value that the decimal notation gives them. -/
theorem digitsValue_eq (digits : List Char) :
    digitsValue digits = Nat.ofDigitChars 10 digits 0 := by
  rw [digitsValue, Nat.ofDigitChars_eq_foldl]

/-- The digits of a number have it as their value. -/
theorem digitsValue_toDigits (value : Nat) : digitsValue (Nat.toDigits 10 value) = value := by
  rw [digitsValue_eq, Nat.ofDigitChars_ten_toDigits]

/-- The digits of a number are digits. -/
theorem isDigit_of_mem_toDigits {value : Nat} {c : Char} (member : c ∈ Nat.toDigits 10 value) :
    isDigit c = true := by
  -- The library's digits are the same range, told in other words.
  have digit := Nat.isDigit_of_mem_toDigits (by decide) (by decide) member
  simp only [Char.isDigit, Bool.and_eq_true, decide_eq_true_eq] at digit
  simp only [isDigit, Bool.and_eq_true, decide_eq_true_eq]
  exact digit

/-- A number is written if it has few enough digits to be read again. -/
theorem isWritable_iff {value : Nat} :
    isWritable value = true ↔ (Nat.toDigits 10 value).length ≤ readingLimit := by
  have positive : 0 < readingLimit := by decide
  -- The model writes its powers of ten by name; they are the usual ones.
  have power : ∀ exponent, tenPow exponent = 10 ^ exponent := fun _ => rfl
  have bound : writingBound = 10 ^ readingLimit := power readingLimit
  rw [Nat.length_toDigits_le_iff (by decide) positive, ← bound]
  simp [isWritable]

/-- A character that is kept as it is when a double is read. -/
def IsBare (c : Char) : Prop :=
  ' '.toNat < c.toNat ∧ c.toNat < 127 ∧ c ≠ '_'

instance (c : Char) : Decidable (IsBare c) :=
  inferInstanceAs (Decidable (_ ∧ _ ∧ _))

/-- Digits are kept as they are. -/
theorem isBare_of_isDigit {c : Char} (digit : isDigit c = true) : IsBare c := by
  -- The ten digits lie between the blank and the last sign of ASCII.
  have range := isDigit_iff.1 digit
  refine ⟨?_, by omega, ?_⟩
  · have : ' '.toNat = 0x20 := rfl
    omega
  · rintro rfl
    exact absurd digit (by decide)

section

variable {text : List Char} (bare : ∀ c ∈ text, IsBare c)

include bare

/-- Text that is kept as it is is in ASCII already. -/
theorem foldScripts_bare : foldScripts text = text := by
  induction text with
  | nil => rfl
  | cons c rest ih =>
    obtain ⟨⟨-, ascii, -⟩, others⟩ := List.forall_mem_cons.1 bare
    rw [foldScripts, if_pos ascii, ih others]

/-- No blank stands before text that is kept as it is. -/
theorem dropWhile_bare : text.dropWhile isAsciiBlank = text := by
  refine List.dropWhile_eq_self_iff.2 fun some => ?_
  obtain ⟨solid, -, -⟩ := bare _ (List.getElem_mem some)
  have space : ' '.toNat = 0x20 := rfl
  simp only [isAsciiBlank, Bool.or_eq_true, beq_iff_eq, Bool.and_eq_true, decide_eq_true_eq]
  rintro (blank | control)
  · rw [blank] at solid
    exact lt_irrefl _ solid
  · omega

/-- No underscore stands in text that is kept as it is. -/
theorem filter_bare : text.filter (· != '_') = text :=
  List.filter_eq_self.2 fun c member => bne_iff_ne.2 (bare c member).2.2

/-- No underscore stands in text that is kept as it is. -/
theorem underscoresJoin_bare (before : Option Char) : underscoresJoin before text = true := by
  induction text generalizing before with
  | nil => rfl
  | cons c rest ih =>
    obtain ⟨⟨-, -, first⟩, others⟩ := List.forall_mem_cons.1 bare
    unfold underscoresJoin
    -- Only a character that is an underscore could make a difference, and none is.
    split
    · rfl
    · rename_i same
      cases same
      exact absurd rfl first
    · rename_i same
      cases same
      exact ih others _

/-- Text that is kept as it is is read as a double by its sign and the rest. -/
theorem readDouble_bare {value : Float} {negative : Bool} {body : List Char}
    (signed : splitSign text = (negative, body))
    (read : (readMagnitude? negative body).or (readSpecial? negative body) = some value) :
    readDouble (String.ofList text) = .ok value := by
  -- Blanks are dropped at both ends, at the second by reading backwards.
  have reversed : ∀ c ∈ text.reverse, IsBare c := fun c member => bare c (List.mem_reverse.1 member)
  simp only [readDouble, String.toList_ofList, foldScripts_bare bare, dropWhile_bare bare,
    dropWhile_bare reversed, List.reverse_reverse, filter_bare bare, underscoresJoin_bare bare,
    signed, if_true, read]

end

section

variable {digits : List Char} (inside : ∀ c ∈ digits, isDigit c = true)

include inside

/-- Digits stand for less than the power of ten that has one digit more. -/
theorem digitsValue_lt : digitsValue digits < tenPow digits.length := by
  rw [digitsValue_eq, tenPow, Nat.pow_eq]
  induction digits with
  | nil => simp
  | cons c rest ih =>
    simp only [List.mem_cons, forall_eq_or_imp] at inside
    have low := isDigit_iff.1 inside.1
    have behind := ih inside.2
    -- The first digit counts at most nine times what the others stay below.
    rw [Nat.ofDigitChars_cons, Nat.ofDigitChars_eq_ofDigitChars_zero, List.length_cons,
      Nat.pow_succ]
    have first : c.toNat - '0'.toNat ≤ 9 := by
      have : '0'.toNat = 0x30 := rfl
      omega
    have bound := Nat.mul_le_mul_left (10 ^ rest.length) first
    rw [Nat.mul_zero, Nat.zero_add]
    omega

/-- A number has at most as many digits as it is read from, some of which may be zeros in front. -/
theorem toDigits_length_le (some : digits ≠ []) :
    (Nat.toDigits 10 (digitsValue digits)).length ≤ digits.length :=
  (Nat.length_toDigits_le_iff (by decide) (List.length_pos_iff.2 some)).2 (digitsValue_lt inside)

/-- Digits are in ASCII already. -/
theorem foldScripts_digits : foldScripts digits = digits :=
  foldScripts_bare fun c member => isBare_of_isDigit (inside c member)

/-- No blank stands before digits. -/
theorem dropWhile_digits : digits.dropWhile isAsciiBlank = digits :=
  dropWhile_bare fun c member => isBare_of_isDigit (inside c member)

/-- No sign stands before digits. -/
theorem splitSign_digits : splitSign digits = (false, digits) := by
  -- Neither sign is a digit, so the last case is the one that holds.
  unfold splitSign
  split
  · simp [isDigit] at inside
  · simp [isDigit] at inside
  · rfl

/-- Digits have no underscore between them. -/
theorem underscoresJoin_digits (before : Option Char) : underscoresJoin before digits = true :=
  underscoresJoin_bare (fun c member => isBare_of_isDigit (inside c member)) before

end

/-- Digits are read as the whole number that they stand for, unless there are too many. -/
theorem readInt_digits {text : String} (some : text.toList ≠ [])
    (inside : ∀ c ∈ text.toList, isDigit c = true) :
    readInt text =
      if readingLimit < text.toList.length then .error (.value (.literalTooLong text.toList.length))
      else .ok (digitsValue text.toList) := by
  -- Reading stops at the first character that is neither a digit nor an underscore: nowhere.
  have run : text.toList.takeWhile (fun c => isDigit c || c == '_') = text.toList := by
    have inRun : ∀ c ∈ text.toList, (isDigit c || c == '_') = true := by
      intro c member
      simp [inside c member]
    rw [← List.append_nil text.toList, List.takeWhile_append_of_pos inRun]
    simp
  have all : text.toList.filter isDigit = text.toList := List.filter_eq_self.2 inside
  have filled : text.toList.isEmpty = false := by simpa using some
  -- All of the text is one run of digits, with nothing before it and nothing after it.
  simp only [readInt, foldScripts_digits inside, dropWhile_digits inside, splitSign_digits inside,
    run, all, underscoresJoin_digits inside, filled, List.drop_length, List.all_nil]
  simp

/-- A number token of digits has the value that they stand for, unless there are too many. -/
theorem readNumber_digits {text : String} (some : text.toList ≠ [])
    (inside : ∀ c ∈ text.toList, isDigit c = true) :
    readNumber (.some text) =
      if readingLimit < text.toList.length then .error (.value (.literalTooLong text.toList.length))
      else .ok (.int (digitsValue text.toList)) := by
  -- Without a point the text is read as a whole number.
  have whole : text.toList.contains '.' = false := by
    rw [Bool.eq_false_iff]
    intro point
    have digit := inside '.' (by simpa using point)
    simp [isDigit] at digit
  simp only [readNumber, whole, Bool.false_eq_true, if_false, readInt_digits some inside]
  split
  · rfl
  · rfl

/-- A text that starts with a digit has no sign of its own. -/
theorem splitSign_signed {text : List Char} (digit : ∃ c ∈ text.head?, isDigit c = true)
    (negative : Bool) : splitSign (if negative then '-' :: text else text) = (negative, text) := by
  obtain ⟨c, first, digit⟩ := digit
  obtain ⟨rest, rfl⟩ := List.head?_eq_some_iff.1 first
  -- A sign in front is taken off; without one the first digit is no sign either.
  cases negative
  · simp only [Bool.false_eq_true, if_false]
    unfold splitSign
    split
    · rename_i same
      cases same
      exact absurd digit (by decide)
    · rename_i same
      cases same
      exact absurd digit (by decide)
    · rfl
  · rfl

section

variable {whole fraction tail : List Char} {exponent : Int} (negative : Bool)
  (inside : ∀ c ∈ whole, isDigit c = true) (filled : whole ≠ [])

include inside filled

/-- Digits with a fraction and an exponent are read as the number that they stand for. -/
theorem readMagnitude?_fraction (behind : ∀ c ∈ fraction, isDigit c = true)
    (stop : ∀ c ∈ tail.head?, isDigit c = false) (scale : readExponent? tail = some exponent) :
    readMagnitude? negative (whole ++ '.' :: (fraction ++ tail)) =
      some (decimalDouble negative (digitsValue (whole ++ fraction))
        (exponent - fraction.length)) := by
  -- The run of digits stops at the point, and the next one at what follows the fraction.
  have before : (whole ++ '.' :: (fraction ++ tail)).takeWhile isDigit = whole :=
    takeWhile_append_stop inside (by simp [isDigit])
  have after := takeWhile_append_stop behind stop
  have some : whole.isEmpty = false := by simpa using filled
  simp only [readMagnitude?, before, List.drop_left, after, some, scale, Bool.false_and,
    Bool.false_eq_true, if_false, Option.map_some]

/-- Digits with an exponent are read as the number that they stand for. -/
theorem readMagnitude?_whole (stop : ∀ c ∈ tail.head?, isDigit c = false ∧ c ≠ '.')
    (scale : readExponent? tail = some exponent) :
    readMagnitude? negative (whole ++ tail) =
      some (decimalDouble negative (digitsValue whole) exponent) := by
  have before : (whole ++ tail).takeWhile isDigit = whole :=
    takeWhile_append_stop inside fun c first => (stop c first).1
  have some : whole.isEmpty = false := by simpa using filled
  simp only [readMagnitude?, before, List.drop_left]
  -- What follows the digits is no point, so there is no fraction.
  split
  · exact absurd rfl (stop '.' rfl).2
  · simp [some, scale]

end

/-- Digits on both sides of a point are read as the double nearest to the decimal. -/
theorem readDouble_fraction {digits fraction : List Char} {text : String}
    (written : text.toList = digits ++ '.' :: fraction) (filled : digits ≠ [])
    (inside : ∀ c ∈ digits, isDigit c = true) (behind : ∀ c ∈ fraction, isDigit c = true) :
    readDouble text =
      .ok (decimalDouble false (digitsValue (digits ++ fraction))
        (0 - (fraction.length : Int))) := by
  have bare : ∀ c ∈ digits ++ '.' :: fraction, IsBare c := by
    intro c member
    rcases List.mem_append.1 member with before | after
    · exact isBare_of_isDigit (inside c before)
    · rcases List.mem_cons.1 after with rfl | after
      · decide
      · exact isBare_of_isDigit (behind c after)
  have first : ∃ c ∈ (digits ++ '.' :: fraction).head?, isDigit c = true := by
    obtain ⟨c, rest, rfl⟩ := List.exists_cons_of_ne_nil filled
    exact ⟨c, rfl, inside c List.mem_cons_self⟩
  have read := readMagnitude?_fraction false inside filled behind
    (by simp : ∀ c ∈ ([] : List Char).head?, isDigit c = false) rfl
  rw [List.append_nil] at read
  rw [← @String.ofList_toList text, written]
  exact readDouble_bare bare (splitSign_signed first false) (by rw [read]; rfl)

/-- Digits on both sides of a point are read as a double. -/
theorem readDouble_decimal {digits fraction : List Char} {text : String}
    (written : text.toList = digits ++ '.' :: fraction) (some : digits ≠ [])
    (inside : ∀ c ∈ digits, isDigit c = true) (behind : ∀ c ∈ fraction, isDigit c = true) :
    ∃ value, readDouble text = .ok value :=
  ⟨_, readDouble_fraction written some inside behind⟩

end Climb
