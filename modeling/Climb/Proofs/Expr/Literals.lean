import Climb.Proofs.Expr.RoundTrip
import Climb.Proofs.Number.Layout
import Climb.Proofs.Token.MaximalMunch

/-! What becomes of a decimal literal when it is written again. -/

namespace Climb

/-- A text that is a single number token, with the number that the token is read as. -/
def IsLiteral (text : String) (value : Number) : Prop :=
  ∃ token, lex text = ([token], none) ∧ token.type = .kind .number ∧
    readNumber token.text = .ok value

/-- A text that consists of lexemes that are apart has just their tokens. -/
theorem lex_written {text : String} {pieces : List Piece} (apart : Piece.Apart pieces)
    (written : text.toList = Piece.written pieces) :
    lex text = (pieces.map Piece.token, none) := by
  obtain ⟨tokens, calm⟩ := Piece.lexes apart 0
  rw [← written] at tokens calm
  exact Prod.ext tokens calm

/-- A text that is a number by the lexical grammar is a single number token. -/
theorem lex_number {text : String} (admitted : Kind.number.Admits text.toList) :
    lex text = ([.ofKind .number text], none) := by
  -- A text of one lexeme is a text whose lexemes are apart.
  have alone := @lex_written text [⟨.number, text.toList, [], admitted, by simp [IsSpace]⟩]
    ⟨by simp, trivial⟩ (by simp [Piece.written])
  rw [alone]
  simp [Piece.token]

/-- Few enough digits are a literal of a whole number. -/
theorem isLiteral_digits {text : String} (inside : IsDigits text.toList)
    (few : text.toList.length ≤ readingLimit) :
    IsLiteral text (.int (digitsValue text.toList)) := by
  refine ⟨_, lex_number (.whole inside), rfl, ?_⟩
  exact (readNumber_digits inside.1 inside.2).trans (if_neg (Nat.not_lt.2 few))

/-- Digits on both sides of a point are a literal of a double. -/
theorem isLiteral_decimal {text : String} {whole fraction : List Char} {value : Float}
    (written : text.toList = whole ++ '.' :: fraction) (before : IsDigits whole)
    (behind : IsDigits fraction) (read : readDouble text = .ok value) :
    IsLiteral text (.float value) := by
  refine ⟨_, lex_number (written ▸ .decimal before behind), rfl, ?_⟩
  -- The point is what makes a number be read as a double.
  have point : text.toList.contains '.' = true := by simp [written]
  have double : readNumber (some text) = (readDouble text).map .float := by
    simp only [readNumber, point, if_true]
    rfl
  exact double.trans (by rw [read]; rfl)

/-- A literal is read as the expression that is its number. -/
theorem IsLiteral.ofString {text : String} {value : Number} (literal : IsLiteral text value) :
    Expr.ofString text = .ok (.number value) := by
  obtain ⟨token, lexed, typed, read⟩ := literal
  rw [Expr.ofString_ok_iff, lexed]
  exact ⟨rfl, .weaken (by decide) (.number typed read)⟩

/-- The text of a whole number that is not below zero is a literal of it. -/
theorem isLiteral_toString {value : Nat} (short : isWritable value = true) :
    IsLiteral (toString (value : Int)) (.int value) := by
  -- There is no sign, so the text is the digits and nothing else.
  have digits : (toString (value : Int)).toList = Nat.toDigits 10 value := by
    rw [Int.toString_eq_repr, Int.repr_eq_if, if_pos (Int.natCast_nonneg value), Int.toNat_natCast,
      Nat.toList_repr]
  have inside : IsDigits (toString (value : Int)).toList := by
    rw [digits]
    exact ⟨Nat.toDigits_ne_nil, fun _ => isDigit_of_mem_toDigits⟩
  have literal := isLiteral_digits inside (digits ▸ isWritable_iff.1 short)
  rwa [digits, digitsValue_toDigits] at literal

/-- The name of infinity is lexed as a name. -/
theorem lex_infinity : lex "inf" = ([.ofKind .name "inf"], none) :=
  rfl

/-- Digits with an exponent below zero are lexed as a number, a name, a sign and a number. -/
theorem lex_marked {digits : List Char} (width : Nat) {exponent : Int} (inside : IsDigits digits)
    (below : exponent < 0) : ∃ front behind,
      lex (String.ofList (markedChars width digits exponent)) =
        ([.ofKind .number front, .ofKind .name "e", .ofKind .minus "-", .ofKind .number behind],
          none) := by
  obtain ⟨first, rest, rfl⟩ := List.exists_cons_of_ne_nil inside.1
  obtain ⟨digit, others⟩ := List.forall_mem_cons.1 inside.2
  have alone : IsDigits [first] := ⟨by simp, by simpa using digit⟩
  -- Up to the mark stands one lexeme, with a fraction if there are more digits than one.
  have front : Kind.number.Admits ([first] ++ if rest.isEmpty then [] else '.' :: rest) := by
    cases rest with
    | nil => exact .whole alone
    | cons next rest => exact .decimal alone ⟨List.cons_ne_nil next rest, others⟩
  -- Behind the sign stand digits, some of them zeros that fill the width.
  have behind : IsDigits (List.replicate (width - (decimalChars exponent.natAbs).length) '0' ++
      decimalChars exponent.natAbs) := by
    refine ⟨by simp [decimalChars_ne_nil], fun c member => ?_⟩
    exact (List.mem_append.1 member).elim isDigit_zeros isDigit_decimalChars
  -- Neither the mark nor the sign goes on with what is before it.
  have lexed := @lex_written (String.ofList (markedChars width (first :: rest) exponent))
    [⟨.number, _, [], front, by simp [IsSpace]⟩,
      ⟨.name, ['e'], [], .name (.inl (by decide)) (by simp), by simp [IsSpace]⟩,
      ⟨.minus, ['-'], [], .punctuator rfl, by simp [IsSpace]⟩,
      ⟨.number, _, [], .whole behind, by simp [IsSpace]⟩]
    (by simp [Piece.Apart, Piece.joins])
    (by simp [markedChars, Piece.written, below])
  exact ⟨_, _, lexed⟩

section

variable {value : Float} {mantissa : Nat} {exponent : Int}
  (view : viewDouble value = .finite false mantissa exponent)

include view

/-- A positive double is written in its digits, in the layout that their place asks for. -/
theorem floatChars_positive (nonzero : 0 < mantissa) :
    floatChars value = doubleLayout.write (shortestDigits mantissa exponent) := by
  simp only [floatChars, view, if_neg nonzero.ne', Bool.false_eq_true, if_false]

/-- A double from a ten-thousandth up that is no whole number is written as a literal of it. -/
theorem isLiteral_floatText (large : 1 / 10000 ≤ valueOf mantissa exponent)
    (none : wholeValue? value = none) : IsLiteral (floatText value) (.float value) := by
  obtain ⟨double, -⟩ := eq_of_viewDouble_finite view
  obtain ⟨fraction, nonzero⟩ := exponent_lt_of_wholeValue? view none
  -- The place of its digits is within the range of the positional layout, by either bound.
  have low := point_gt_of_large double nonzero large
  have high := point_le_of_fraction double nonzero fraction
  obtain ⟨whole, fraction, parts, before, behind, -⟩ :=
    positionalChars_parts (shortestDigits mantissa exponent).point
      (decimalChars_ne_nil (shortestDigits mantissa exponent).whole) fun _ => isDigit_decimalChars
  have written : (floatText value).toList = whole ++ '.' :: fraction := by
    rw [floatText, String.toList_ofList, floatChars_positive view nonzero, ← parts]
    exact if_pos (by simp only [doubleLayout]; omega)
  exact isLiteral_decimal written before behind (readDouble_floatText (by simp [view]))

/-- A positive double below a ten-thousandth is written with an exponent, in four tokens. -/
theorem lex_floatText_small (nonzero : 0 < mantissa)
    (small : valueOf mantissa exponent < 1 / 10000) : ∃ front behind,
      lex (floatText value) =
        ([.ofKind .number front, .ofKind .name "e", .ofKind .minus "-", .ofKind .number behind],
          none) := by
  obtain ⟨double, -⟩ := eq_of_viewDouble_finite view
  have low := point_le_of_small double nonzero small
  -- Its digits begin too far behind the point for the positional layout.
  have marked : floatChars value =
      markedChars doubleLayout.exponentWidth
        (decimalChars (shortestDigits mantissa exponent).whole)
        ((shortestDigits mantissa exponent).point - 1) := by
    rw [floatChars_positive view nonzero]
    exact if_neg (by simp only [doubleLayout]; omega)
  rw [floatText, marked]
  exact lex_marked _ ⟨decimalChars_ne_nil _, fun _ => isDigit_decimalChars⟩ (by omega)

/-- A double that is a whole number is written as a literal of the whole number. -/
theorem isLiteral_wholeValue {whole : Int} (known : wholeValue? value = some whole) :
    IsLiteral (toString whole) (.int whole) := by
  -- The sign of the double rules out a minus in front of the digits.
  obtain ⟨magnitude, rfl⟩ := Int.eq_ofNat_of_zero_le (wholeValue?_nonneg view known)
  exact isLiteral_toString (isWritable_wholeValue known)

end

/-- The text of a double in an expression, which has no point if the double is a whole number. -/
def literalText (value : Float) : String :=
  match wholeValue? value with
  | some whole => toString whole
  | none => floatText value

/-- What a double is written as. -/
theorem format_float (value : Float) :
    (Expr.number (.float value)).format = .ok (some (literalText value)) := by
  simp only [Expr.format, Number.format, literalText]
  -- A float that is whole is written as a whole number, and that is never too long.
  cases known : wholeValue? value with
  | some whole =>
    simp only [intText, isWritable_wholeValue known, if_true]
    rfl
  | none => rfl

section

variable {value : Float} (range : viewDouble value = .infinite false ∨
  ∃ mantissa exponent, viewDouble value = .finite false mantissa exponent)

include range

/-- A double that is not close to zero is written as a literal of the same value. -/
theorem isLiteral_literalText (positional : IsPositional value) :
    ∃ again exact, IsLiteral (literalText value) again ∧
      again.rational? = some exact ∧ (Number.float value).rational? = some exact := by
  obtain ⟨negative, mantissa, exponent, view, large⟩ := positional
  -- A literal has no sign, so neither has the double.
  obtain rfl : negative = false := by
    rcases range with infinite | ⟨_, _, finite⟩
    · cases view.symm.trans infinite
    · exact (DoubleView.finite.inj (view.symm.trans finite)).1
  unfold literalText
  cases known : wholeValue? value with
  | some magnitude =>
    -- Written as a whole number it is read as one, of the same value.
    exact ⟨_, magnitude, isLiteral_wholeValue view known, rfl, rational?_wholeValue known⟩
  | none =>
    -- Zero is a whole number, so of the two ways to be positional only the size is left.
    have nonzero := (exponent_lt_of_wholeValue? view known).2
    have exact : (Number.float value).rational? = some (valueOf mantissa exponent) := by
      simp only [Number.rational?, view, Bool.false_eq_true, if_false]
    exact ⟨_, _, isLiteral_floatText view (large.resolve_left nonzero.ne') known, exact, exact⟩

/-- A double close to zero, or an infinite one, is not written as a number token. -/
theorem not_number_literalText (other : ¬ IsPositional value) (token : Token)
    (lexed : lex (literalText value) = ([token], none)) : token.type ≠ .kind .number := by
  rcases range with infinite | ⟨mantissa, exponent, view⟩
  · -- Infinity is written by its name.
    have named : literalText value = "inf" := by
      simp [literalText, wholeValue?, floatText, floatChars, infinite]
    rw [named, lex_infinity] at lexed
    obtain rfl := (List.cons.inj (Prod.mk.inj lexed).1).1
    decide
  · -- Close to zero it is written with an exponent, which makes four tokens.
    obtain ⟨nonzero, small⟩ := not_or.1 fun large => other ⟨_, _, _, view, large⟩
    have positive := Nat.pos_of_ne_zero nonzero
    have none : wholeValue? value = none := by
      -- A whole number other than zero is one at least.
      cases known : wholeValue? value with
      | none => rfl
      | some whole =>
        have exact := rational?_wholeValue known
        simp only [Number.rational?, view, Bool.false_eq_true, if_false, Option.some.injEq] at exact
        have above : (0 : ℚ) < whole := by
          rw [← exact, valueOf]
          positivity
        have one : (1 : ℚ) ≤ whole := by exact_mod_cast above
        linarith
    obtain ⟨front, behind, four⟩ := lex_floatText_small view positive (not_le.1 small)
    rw [literalText, none, four] at lexed
    cases (List.cons.inj (Prod.mk.inj lexed).1).2

end

namespace Expr

/--
A decimal literal, digits on both sides of a point, is a single number token and is read as a
double, and the double has a text. If the double is zero, or finite and not below a ten-thousandth,
then the text is again a single number token with exactly the same value. If the double is closer to
zero, or infinite, then the text is no number token.
-/
theorem decimal_literals_survive_where_positional {whole fraction : List Char}
    (before : IsDigits whole) (behind : IsDigits fraction) :
    ∃ (value : Float) (written : String),
      IsLiteral (String.ofList (whole ++ '.' :: fraction)) (.float value) ∧
      ofString (String.ofList (whole ++ '.' :: fraction)) = .ok (.number (.float value)) ∧
      (number (.float value)).format = .ok (some written) ∧
      (IsPositional value → ∃ again exact, IsLiteral written again ∧
        again.rational? = some exact ∧ (Number.float value).rational? = some exact) ∧
      (¬ IsPositional value → ∀ token, lex written = ([token], none) →
        token.type ≠ .kind .number) := by
  have text := @String.toList_ofList (whole ++ '.' :: fraction)
  have literal := isLiteral_decimal text before behind
    (readDouble_fraction text before.1 before.2 behind.2)
  -- All that is read without a sign is finite and positive, or infinite.
  have range := viewDouble_decimalDouble false (digitsValue (whole ++ fraction))
    (0 - (fraction.length : Int))
  exact ⟨_, _, literal, literal.ofString, format_float _, isLiteral_literalText range,
    not_number_literalText range⟩

/-- A quarter is such a literal. -/
theorem quarter_survives :
    IsDigits ['0'] ∧ IsDigits ['2', '5'] ∧
      ∃ (value : Float) (written : String),
        IsLiteral "0.25" (.float value) ∧ ofString "0.25" = .ok (.number (.float value)) ∧
        (number (.float value)).format = .ok (some written) ∧
        (IsPositional value → ∃ again exact, IsLiteral written again ∧
          again.rational? = some exact ∧ (Number.float value).rational? = some exact) ∧
        (¬ IsPositional value → ∀ token, lex written = ([token], none) →
          token.type ≠ .kind .number) :=
  have before : IsDigits ['0'] := by decide
  have behind : IsDigits ['2', '5'] := by decide
  ⟨before, behind, decimal_literals_survive_where_positional before behind⟩

/-- A hundred-thousandth is written with an exponent, which is read as a difference. -/
theorem hundred_thousandth_leaves_the_notation :
    IsLiteral "0.00001" (.float (decimalDouble false 1 (-5))) ∧
      ofString "0.00001" = .ok (.number (.float (decimalDouble false 1 (-5)))) ∧
      (number (.float (decimalDouble false 1 (-5)))).format = .ok (some "1e-05") ∧
      ¬ ∃ again, IsLiteral "1e-05" again := by
  have before : IsDigits ['0'] := by decide
  have behind : IsDigits ['0', '0', '0', '0', '1'] := by decide
  have literal : IsLiteral "0.00001" (.float (decimalDouble false 1 (-5))) :=
    isLiteral_decimal rfl before behind (readDouble_fraction rfl before.1 before.2 behind.2)
  have written : literalText (decimalDouble false 1 (-5)) = "1e-05" := by decide +kernel
  refine ⟨literal, literal.ofString, by rw [format_float, written], ?_⟩
  rintro ⟨value, token, lexed, -⟩
  -- The mark begins a name, as it would anywhere behind a number.
  have four : lex "1e-05" =
      ([.ofKind .number "1", .ofKind .name "e", mark .minus, .ofKind .number "05"], none) := rfl
  cases (List.cons.inj (Prod.mk.inj (four.symm.trans lexed)).1).2

end Expr

end Climb
