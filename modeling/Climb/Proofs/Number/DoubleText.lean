import Climb.Proofs.Number.Reading
import Climb.Proofs.Number.Shortest

/-! The text of a double is read as that double. -/

namespace Climb

section

variable {digits more : List Char}

/-- Digits behind others move them up. -/
theorem digitsValue_append : digitsValue (digits ++ more) =
    digitsValue digits * 10 ^ more.length + digitsValue more := by
  rw [digitsValue_eq, digitsValue_eq, digitsValue_eq, Nat.ofDigitChars_append,
    Nat.ofDigitChars_eq_ofDigitChars_zero, mul_comm]

/-- Zeros have no value. -/
theorem digitsValue_zeros (count : Nat) : digitsValue (List.replicate count '0') = 0 := by
  rw [digitsValue_eq, Nat.ofDigitChars_replicate_zero, mul_zero]

/-- Zeros are digits. -/
theorem isDigit_zeros {count : Nat} {c : Char} (member : c ∈ List.replicate count '0') :
    isDigit c = true := by
  rw [List.eq_of_mem_replicate member]
  rfl

end

/-- The characters of a whole number are its digits. -/
theorem decimalChars_eq (whole : Nat) : decimalChars whole = Nat.toDigits 10 whole := by
  simp [decimalChars]

/-- A whole number has a character at least. -/
theorem decimalChars_ne_nil (whole : Nat) : decimalChars whole ≠ [] := by
  rw [decimalChars_eq]
  exact Nat.toDigits_ne_nil

/-- The characters of a whole number are digits. -/
theorem isDigit_decimalChars {whole : Nat} {c : Char} (member : c ∈ decimalChars whole) :
    isDigit c = true := by
  rw [decimalChars_eq] at member
  exact isDigit_of_mem_toDigits member

/-- What an exponent is read from. -/
theorem readExponent?_marked (negative : Bool) {digits : List Char} (filled : digits ≠ [])
    (inside : ∀ c ∈ digits, isDigit c = true) :
    readExponent? ('e' :: (if negative then '-' else '+') :: digits) =
      some (if negative then -(digitsValue digits : Int) else digitsValue digits) := by
  have some : digits.isEmpty = false := by simpa using filled
  have all : digits.all isDigit = true := List.all_eq_true.2 inside
  cases negative <;> simp [readExponent?, splitSign, some, all]

/-- Positional digits are digits with a fraction, and keep the number that they stand for. -/
theorem positionalChars_parts {digits : List Char} (point : Int) (filled : digits ≠ [])
    (inside : ∀ c ∈ digits, isDigit c = true) :
    ∃ whole fraction, positionalChars digits point = whole ++ '.' :: fraction ∧
      (whole ≠ [] ∧ ∀ c ∈ whole, isDigit c = true) ∧
      (fraction ≠ [] ∧ ∀ c ∈ fraction, isDigit c = true) ∧
      (digitsValue (whole ++ fraction) : ℚ) * 10 ^ (0 - (fraction.length : Int)) =
        digitsValue digits * 10 ^ (point - digits.length) := by
  have zero : ['0'] ≠ [] ∧ ∀ c ∈ ['0'], isDigit c = true := by simp [isDigit]
  have none : digitsValue ['0'] = 0 := rfl
  have padded (count : Nat) (c : Char)
      (member : c ∈ digits ∨ c ∈ List.replicate count '0') : isDigit c = true :=
    member.elim (inside c) isDigit_zeros
  unfold positionalChars
  split
  · -- All digits stand behind the point, after zeros.
    rename_i small
    refine ⟨['0'], List.replicate (-point).toNat '0' ++ digits, rfl, zero,
      ⟨by simp [filled], ?_⟩, ?_⟩
    · exact fun c member => padded _ c (List.mem_append.1 member).symm
    · have value : digitsValue (['0'] ++ (List.replicate (-point).toNat '0' ++ digits)) =
          digitsValue digits := by
        rw [digitsValue_append, digitsValue_append, digitsValue_zeros, none]
        simp
      have places : 0 - ((List.replicate (-point).toNat '0' ++ digits).length : Int) =
          point - digits.length := by
        rw [List.length_append, List.length_replicate]
        omega
      rw [value, places]
  · split
    · -- All digits stand before the point, and zeros after them.
      rename_i large
      refine ⟨digits ++ List.replicate (point.toNat - digits.length) '0', ['0'], by simp,
        ⟨by simp [filled], ?_⟩, zero, ?_⟩
      · exact fun c member => padded _ c (List.mem_append.1 member)
      · have value :
            digitsValue (digits ++ List.replicate (point.toNat - digits.length) '0' ++ ['0']) =
              digitsValue digits * 10 ^ (point.toNat - digits.length) * 10 := by
          rw [digitsValue_append, digitsValue_append, digitsValue_zeros, none]
          simp
        have places : point - digits.length = (point.toNat - digits.length : Nat) := by omega
        rw [value, places, zpow_natCast]
        push_cast
        norm_num
        ring
    · -- The point stands between the digits.
      rename_i small inner
      refine ⟨digits.take point.toNat, digits.drop point.toNat, rfl, ⟨?_, ?_⟩, ⟨?_, ?_⟩, ?_⟩
      · simp [filled]
        omega
      · exact fun c member => inside c (List.mem_of_mem_take member)
      · rw [Ne, List.drop_eq_nil_iff]
        omega
      · exact fun c member => inside c (List.mem_of_mem_drop member)
      · have places : 0 - ((digits.drop point.toNat).length : Int) = point - digits.length := by
          rw [List.length_drop]
          omega
        rw [List.take_append_drop, places]

/-- An unsigned text that is read as the double nearest to a number, whatever sign it is given. -/
structure ReadsAs (text : List Char) (number : ℚ) : Prop where
  bare : ∀ c ∈ text, IsBare c
  digit : ∃ c ∈ text.head?, isDigit c = true
  read : ∀ negative, ∃ digits power,
    readMagnitude? negative text = some (decimalDouble negative digits power) ∧
      (digits : ℚ) * 10 ^ power = number

/-- Positional digits are read as the number that they stand for. -/
theorem readsAs_positional {digits : List Char} (point : Int) (filled : digits ≠ [])
    (inside : ∀ c ∈ digits, isDigit c = true) :
    ReadsAs (positionalChars digits point)
      (digitsValue digits * 10 ^ (point - digits.length)) := by
  obtain ⟨whole, fraction, parts, ⟨some, before⟩, ⟨-, behind⟩, value⟩ :=
    positionalChars_parts point filled inside
  rw [parts]
  refine ⟨fun c member => ?_, ?_, fun negative => ⟨_, _, ?_, value⟩⟩
  · rcases List.mem_append.1 member with digit | digit
    · exact isBare_of_isDigit (before c digit)
    · rcases List.mem_cons.1 digit with rfl | digit
      · decide
      · exact isBare_of_isDigit (behind c digit)
  · obtain ⟨c, rest, rfl⟩ := List.exists_cons_of_ne_nil some
    exact ⟨c, rfl, before c List.mem_cons_self⟩
  · -- No exponent follows, which is read as the exponent zero.
    have read := readMagnitude?_fraction negative before some behind
      (by simp : ∀ c ∈ ([] : List Char).head?, isDigit c = false) rfl
    rwa [List.append_nil] at read

/-- A written exponent, whatever zeros it has in front, is read as it is. -/
theorem readExponent?_written (zeros : Nat) (exponent : Int) :
    readExponent? ('e' :: (if exponent < 0 then '-' else '+') ::
      (List.replicate zeros '0' ++ decimalChars exponent.natAbs)) = some exponent := by
  have value : digitsValue (List.replicate zeros '0' ++ decimalChars exponent.natAbs) =
      exponent.natAbs := by
    rw [digitsValue_append, digitsValue_zeros, decimalChars_eq, digitsValue_toDigits, zero_mul,
      zero_add]
  have filled : List.replicate zeros '0' ++ decimalChars exponent.natAbs ≠ [] := by
    simp [decimalChars_ne_nil]
  have inside : ∀ c ∈ List.replicate zeros '0' ++ decimalChars exponent.natAbs,
      isDigit c = true := by
    intro c member
    rcases List.mem_append.1 member with zero | digit
    · exact isDigit_zeros zero
    · exact isDigit_decimalChars digit
  have read := readExponent?_marked (decide (exponent < 0)) filled inside
  simp only [decide_eq_true_eq, value] at read
  rw [read]
  congr 1
  -- The sign and the magnitude make up the exponent again.
  split <;> omega

/-- Digits with an exponent are read as the number that they stand for. -/
theorem readsAs_marked (width : Nat) {digits : List Char} (exponent : Int) (filled : digits ≠ [])
    (inside : ∀ c ∈ digits, isDigit c = true) :
    ReadsAs (markedChars width digits exponent)
      (digitsValue digits * 10 ^ (exponent + 1 - digits.length)) := by
  -- One digit stands in front of the point, and the point only if there are more.
  obtain ⟨first, rest, rfl⟩ := List.exists_cons_of_ne_nil filled
  obtain ⟨digit, behind⟩ := List.forall_mem_cons.1 inside
  have scale := readExponent?_written (width - (decimalChars exponent.natAbs).length) exponent
  have text : markedChars width (first :: rest) exponent =
      [first] ++ ((if rest.isEmpty then [] else '.' :: rest) ++
        'e' :: (if exponent < 0 then '-' else '+') ::
          (List.replicate (width - (decimalChars exponent.natAbs).length) '0' ++
            decimalChars exponent.natAbs)) := by
    simp [markedChars]
  have places : exponent - rest.length = exponent + 1 - (first :: rest).length := by
    rw [List.length_cons]
    omega
  have alone : ∀ c ∈ [first], isDigit c = true := by simpa using digit
  rw [text, ← places]
  refine ⟨fun c member => ?_, ⟨first, rfl, digit⟩, fun negative => ?_⟩
  · -- All that the text is made of: digits, the point, the mark and a sign.
    have kept : isDigit c = true ∨ c = '.' ∨ c = 'e' ∨ c = '-' ∨ c = '+' := by
      rcases List.mem_append.1 member with digit | member
      · exact .inl (alone c digit)
      rcases List.mem_append.1 member with part | member
      · split at part
        · cases part
        · exact (List.mem_cons.1 part).elim (.inr ∘ .inl) (.inl ∘ behind c)
      rcases List.mem_cons.1 member with mark | member
      · exact .inr (.inr (.inl mark))
      rcases List.mem_cons.1 member with sign | member
      · split at sign <;> simp [sign]
      rcases List.mem_append.1 member with zero | digit
      · exact .inl (isDigit_zeros zero)
      · exact .inl (isDigit_decimalChars digit)
    rcases kept with digit | rfl | rfl | rfl | rfl
    · exact isBare_of_isDigit digit
    all_goals decide
  · -- Without a fraction there is no point, and the text is read by another branch.
    cases rest with
    | nil =>
      exact ⟨_, _, readMagnitude?_whole negative alone (by simp) (by simp [isDigit]) scale, by simp⟩
    | cons next rest =>
      exact ⟨_, _,
        readMagnitude?_fraction negative alone (by simp) behind (by simp [isDigit]) scale, by simp⟩

/-- Digits with a scale are read as the number that they stand for, in either layout. -/
theorem readsAs_write (layout : DigitLayout) (digits : Digits) :
    ReadsAs (layout.write digits) digits.value := by
  have filled := decimalChars_ne_nil digits.whole
  have inside : ∀ c ∈ decimalChars digits.whole, isDigit c = true := fun _ => isDigit_decimalChars
  have value : digitsValue (decimalChars digits.whole) = digits.whole := by
    rw [decimalChars_eq, digitsValue_toDigits]
  unfold DigitLayout.write Digits.value
  simp only
  -- Both layouts tell the same number, scaled from either end of the digits.
  split
  · have read := readsAs_positional digits.point filled inside
    rwa [value] at read
  · have read := readsAs_marked layout.exponentWidth (digits.point - 1) filled inside
    rwa [value, sub_add_cancel] at read

/-- A whole number lies between the powers of ten that its digits tell. -/
theorem decimalChars_length {whole : Nat} (nonzero : 0 < whole) :
    10 ^ ((decimalChars whole).length - 1) ≤ whole ∧ whole < 10 ^ (decimalChars whole).length := by
  rw [decimalChars_eq]
  have some : 0 < (Nat.toDigits 10 whole).length := Nat.length_toDigits_pos
  refine ⟨?_, (Nat.length_toDigits_le_iff (by decide) some).1 le_rfl⟩
  -- One digit needs no power below it; of more, one less would not have been enough.
  rcases Nat.eq_or_lt_of_le some with one | more
  · rw [← one]
    exact nonzero
  · by_contra less
    have := (Nat.length_toDigits_le_iff (by decide) (by omega)).2 (Nat.lt_of_not_le less)
    omega

section

variable {mantissa : Nat} {exponent : Int}

/-- What is near to a double is not beyond the range of the doubles. -/
theorem Near.bounds {number : ℚ} (near : Near mantissa exponent number)
    (double : IsDouble mantissa exponent) (nonzero : 0 < mantissa) :
    (2 : ℚ) ^ (-1075 : Int) ≤ number ∧ number ≤ 2 ^ (1024 : Int) := by
  have one : (1 : ℚ) ≤ mantissa := by exact_mod_cast nonzero
  constructor
  · refine le_trans ?_ near.below
    -- Half the least step is as far as anything near to a positive double can go down.
    have half : (2 : ℚ) ^ (-1075 : Int) = 1 / 2 * 2 ^ (-1074 : Int) := by
      rw [show (-1075 : Int) = -1 + -1074 by norm_num, zpow_add₀ (by norm_num)]
      norm_num
    rw [half]
    refine mul_le_mul ?_ (zpow_le_zpow_right₀ one_le_two double.least) (by positivity) ?_ <;>
      split <;> linarith
  · refine near.above.trans ?_
    -- The largest mantissa and exponent bound all of them.
    have parts : (2 : ℚ) ^ (1024 : Int) = 2 ^ 53 * 2 ^ (971 : Int) := by
      rw [show (1024 : Int) = 53 + 971 by norm_num, zpow_add₀ (by norm_num)]
      norm_num
    have short : (mantissa + 1 : ℚ) ≤ 2 ^ 53 := by
      exact_mod_cast lt_of_lt_of_eq double.short (by rw [leastNormal_eq]; norm_num)
    rw [parts]
    exact mul_le_mul (by linarith) (zpow_le_zpow_right₀ one_le_two double.most) (by positivity)
      (by positivity)

/-- Three bits are less than a digit. -/
theorem two_zpow_le_ten_zpow (digits : Nat) :
    (2 : ℚ) ^ ((3 : Int) * digits) ≤ 10 ^ (digits : Int) := by
  rw [zpow_mul, zpow_natCast, zpow_natCast]
  exact pow_le_pow_left₀ (by norm_num) (by norm_num) digits

/-- A decimal near to a double is rounded to it. -/
theorem decimalDouble_of_near (double : IsDouble mantissa exponent) (nonzero : 0 < mantissa)
    (negative : Bool) {digits : Nat} {power : Int}
    (near : Near mantissa exponent (digits * 10 ^ power)) :
    decimalDouble negative digits power =
      doubleOfMagnitude negative (magnitudeOf mantissa exponent) := by
  obtain ⟨low, high⟩ := near.bounds double nonzero
  -- Zero is no neighbour of a positive double.
  have some : digits ≠ 0 := by
    rintro rfl
    rw [Nat.cast_zero, zero_mul] at low
    exact absurd low (not_le.2 (by positivity))
  obtain ⟨least, most⟩ := decimalChars_length (Nat.pos_of_ne_zero some)
  generalize length_eq : (decimalChars digits).length = length at least most
  have grid : (0 : ℚ) < 10 ^ power := by positivity
  -- No double is beyond the places from which on decimals are not looked at any further.
  have above : (-400 : Int) ≤ length + power := by
    by_contra below
    have less : (digits : ℚ) * 10 ^ power < 2 ^ (-1075 : Int) := calc
      (digits : ℚ) * 10 ^ power < 10 ^ (length : Int) * 10 ^ power := by
        gcongr
        exact_mod_cast most
      _ = 10 ^ (length + power) := by rw [← zpow_add₀ (by norm_num)]
      _ ≤ 10 ^ (-400 : Int) := zpow_le_zpow_right₀ (by norm_num) (by omega)
      _ ≤ 2 ^ (-1200 : Int) := by
        rw [zpow_neg, zpow_neg]
        exact inv_anti₀ (by positivity) (two_zpow_le_ten_zpow 400)
      _ ≤ 2 ^ (-1075 : Int) := zpow_le_zpow_right₀ (by norm_num) (by norm_num)
    exact absurd low (not_le.2 less)
  -- The same at the other end, by the largest double.
  have below : (length : Int) + power ≤ 400 := by
    by_contra beyond
    have more : (2 : ℚ) ^ (1024 : Int) < digits * 10 ^ power := calc
      (2 : ℚ) ^ (1024 : Int) < 2 ^ (1200 : Int) :=
        zpow_lt_zpow_right₀ (by norm_num) (by norm_num)
      _ ≤ 10 ^ (400 : Int) := two_zpow_le_ten_zpow 400
      _ ≤ 10 ^ ((length - 1 : Nat) + power) := zpow_le_zpow_right₀ (by norm_num) (by omega)
      _ = 10 ^ ((length - 1 : Nat) : Int) * 10 ^ power := by rw [← zpow_add₀ (by norm_num)]
      _ ≤ digits * 10 ^ power := by
        gcongr
        exact_mod_cast least
    exact absurd high (not_le.2 more)
  -- Within those places the decimal is rounded, which gives the double that it is near to.
  have rounded : nearestBits (decimalQuotient digits power).1 (decimalQuotient digits power).2 =
      magnitudeOf mantissa exponent := by
    refine nearestBits_of_near double nonzero (decimalQuotient_pos _ _) ?_
    rwa [← ratio, ratio_decimalQuotient]
  simp only [decimalDouble, length_eq]
  rw [if_neg (by omega), if_neg (by omega), nearestDouble, rounded,
    min_eq_left double.magnitude_lt.le]

end

/-- A sign and a text that is read as a number are read as the double nearest to it. -/
theorem readDouble_signed {text : List Char} {number : ℚ} (reads : ReadsAs text number)
    (negative : Bool) :
    ∃ digits power, readDouble (String.ofList (if negative then '-' :: text else text)) =
      .ok (decimalDouble negative digits power) ∧ (digits : ℚ) * 10 ^ power = number := by
  -- The sign is split off first, and the rest is read as a magnitude with that sign.
  obtain ⟨digits, power, read, value⟩ := reads.read negative
  refine ⟨digits, power, readDouble_bare ?_ (splitSign_signed reads.digit negative) ?_, value⟩
  · cases negative
    · exact reads.bare
    · exact List.forall_mem_cons.2 ⟨by decide, reads.bare⟩
  · rw [read]
    rfl

/-- The text of a double is read as that double, if it is a number. -/
theorem readDouble_floatText {value : Float} (number : viewDouble value ≠ .nan) :
    readDouble (floatText value) = .ok value := by
  unfold floatText floatChars
  split
  · contradiction
  · rename_i negative view
    rw [eq_of_viewDouble_infinite view]
    -- Both names of infinity are read as the signed infinity.
    cases negative <;> rfl
  · rename_i negative mantissa exponent view
    obtain ⟨double, same⟩ := eq_of_viewDouble_finite view
    by_cases zero : mantissa = 0
    · -- Zero has a text of its own, which is read with either sign.
      subst zero
      obtain rfl : exponent = leastExponent := double.filled.resolve_left (by decide)
      rw [same]
      cases negative <;> rfl
    · have nonzero := Nat.pos_of_ne_zero zero
      -- The shortest digits are near to the double, and what is near to it is rounded to it.
      obtain ⟨near, -⟩ := shortestDigits_spec double nonzero
      obtain ⟨digits, power, read, exact⟩ :=
        readDouble_signed (readsAs_write doubleLayout (shortestDigits mantissa exponent)) negative
      rw [if_neg zero, read, decimalDouble_of_near double nonzero negative (exact ▸ near), ← same]

end Climb
