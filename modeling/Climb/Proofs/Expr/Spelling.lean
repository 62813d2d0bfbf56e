import Climb.Expr.Format
import Climb.Proofs.Expr.Wording
import Climb.Proofs.Number.Reading

/-! What the text of an expression stands for. -/

namespace Climb.Expr

/-- A text has the tokens, whatever follows that is parted from it. -/
def LexesAs (text : List Char) (tokens : List Token) : Prop :=
  ∀ (rest : List Char) (later : List Token), Parted rest → Lexes rest later →
    Lexes (text ++ rest) (tokens ++ later)

/-- The token of a punctuator. -/
def mark (kind : Kind) : Token :=
  .ofKind kind kind.symbol

/-- A punctuator is lexed as its token. -/
theorem lexes_mark (c : Char) (kind : Kind) {rest : List Char} {later : List Token}
    (found : Kind.ofChar? c = some kind) (lexed : Lexes rest later) :
    Lexes (c :: rest) (mark kind :: later) := by
  have symbol : kind.symbol = String.singleton c := by
    simp only [Kind.symbol, (classes_of_punctuator found).1]
  rw [mark, symbol]
  exact .punctuator found lexed

/-- Whether the text of an expression starts with the sign of a negative number. -/
def signed : Expr → Bool
  | number (.int value) => value < 0
  | call callee _ => callee.signed
  | _ => false

/-- An expression behind a sign, if there is one. -/
def withSign : Bool → Expr → Expr
  | true, expr => pre (some "-") expr
  | false, expr => expr

mutual

/-- What the text of an expression is read as, without the sign that it may start with. -/
def unsigned : Expr → Expr
  | name label => name label
  | number (.int value) => number (.int value.natAbs)
  | number value => number value
  | assign target value => assign target (withSign value.signed value.unsigned)
  | pre op operand => pre op (withSign operand.signed operand.unsigned)
  -- The operator takes its operand without the sign, which is left for the whole.
  | post op operand => withSign operand.signed (post op operand.unsigned)
  | bin left op right =>
    bin (withSign left.signed left.unsigned) op (withSign right.signed right.unsigned)
  | cond condition chosen other =>
    cond (withSign condition.signed condition.unsigned) (withSign chosen.signed chosen.unsigned)
      (withSign other.signed other.unsigned)
  | call callee args => call callee.unsigned (respelledAll args)
  | foreign value => foreign value

/-- What the texts of expressions are read as, in order. -/
def respelledAll : List Expr → List Expr
  | [] => []
  | first :: rest => withSign first.signed first.unsigned :: respelledAll rest

end

/-- What the text of an expression is read as. -/
def respelled (expr : Expr) : Expr :=
  withSign expr.signed expr.unsigned

/-- The token of a sign, if there is one. -/
def signTokens : Bool → List Token
  | true => [mark .minus]
  | false => []

/-- A sign and what binds tighter than it are derived as an operand. -/
theorem derives_withSign {tokens : List Token} {expr : Expr} (signed : Bool)
    (derived : Derives .suffix tokens expr) :
    Derives .unary (signTokens signed ++ tokens) (withSign signed expr) := by
  cases signed with
  | true => exact .pre (by decide) (derived.weaken (by decide))
  | false => exact derived.weaken (by decide)

/-- The expression is written as the text, whose tokens are read as it is respelled. -/
structure Spells (expr : Expr) (text : String) (tokens : List Token) : Prop where
  format : expr.format = .ok (some text)
  lexes : LexesAs text.toList (signTokens expr.signed ++ tokens)
  derives : Derives .suffix tokens expr.unsigned

/-- A whole text is derived as an operand. -/
theorem Spells.whole {expr : Expr} {text : String} {tokens : List Token}
    (spelled : Spells expr text tokens) :
    Derives .unary (signTokens expr.signed ++ tokens) expr.respelled :=
  derives_withSign expr.signed spelled.derives

section

variable {expr : Expr} {text : List Char} {tokens : List Token} {written : String}

/-- What is written in parentheses is a group. -/
theorem spells_group (format : expr.format = .ok (some written)) (plain : expr.signed = false)
    (enclosed : written.toList = '(' :: (text ++ [')'])) (lexes : LexesAs text tokens)
    (derived : Derives .sequence tokens expr.unsigned) :
    Spells expr written (mark .lparen :: (tokens ++ [mark .rparen])) where
  format := format
  lexes := by
    intro rest later parted lexed
    -- The closing parenthesis parts the text from what follows it.
    have closed := lexes _ _ (.cons ')' rest rfl) (lexes_mark ')' .rparen rfl lexed)
    have opened := lexes_mark '(' .lparen rfl closed
    rw [enclosed, plain]
    simpa only [signTokens, List.cons_append, List.append_assoc, List.nil_append] using opened
  derives := .tighter rfl (.group rfl derived rfl)

end

/-- The characters of operators that stand before their operand, and their kinds. -/
theorem sign_of_known {op : String} (known : op ∈ ["+", "-", "~", "!"]) :
    ∃ c kind, Kind.ofChar? c = some kind ∧ op.toList = [c] ∧ kind.symbol = op ∧
      .kind kind ∈ signs := by
  simp only [List.mem_cons, List.not_mem_nil, or_false] at known
  -- Each sign is a single character that the scanner knows.
  rcases known with rfl | rfl | rfl | rfl
  · exact ⟨'+', .plus, rfl, rfl, rfl, by decide⟩
  · exact ⟨'-', .minus, rfl, rfl, rfl, by decide⟩
  · exact ⟨'~', .tilde, rfl, rfl, rfl, by decide⟩
  · exact ⟨'!', .bang, rfl, rfl, rfl, by decide⟩

/-- The characters of operators between operands, and their kinds, which join signed operands. -/
theorem binary_of_known {op : String} (known : op ∈ ["+", "-", "*", "/", "^", ";"]) :
    ∃ c kind, Kind.ofChar? c = some kind ∧ op.toList = [c] ∧
      ∀ {leftTokens rightTokens : List Token} {left right : Expr},
        Derives .unary leftTokens left → Derives .unary rightTokens right →
          Derives .sequence (leftTokens ++ mark kind :: rightTokens)
            (.bin left (some op) right) := by
  -- A sign and its operand are tight enough to be an operand of any operator.
  have sum : Stratum.sequence.rank ≤ Stratum.sum.rank := by decide
  have product : Stratum.sequence.rank ≤ Stratum.product.rank := by decide
  have power : Stratum.sequence.rank ≤ Stratum.power.rank := by decide
  simp only [List.mem_cons, List.not_mem_nil, or_false] at known
  rcases known with rfl | rfl | rfl | rfl | rfl | rfl
  · refine ⟨'+', .plus, rfl, rfl, fun one other => .weaken sum ?_⟩
    exact .sum (one.weaken (by decide)) (by decide) (other.weaken (by decide))
  · refine ⟨'-', .minus, rfl, rfl, fun one other => .weaken sum ?_⟩
    exact .sum (one.weaken (by decide)) (by decide) (other.weaken (by decide))
  · refine ⟨'*', .star, rfl, rfl, fun one other => .weaken product ?_⟩
    exact .product (one.weaken (by decide)) (by decide) (other.weaken (by decide))
  · refine ⟨'/', .slash, rfl, rfl, fun one other => .weaken product ?_⟩
    exact .product (one.weaken (by decide)) (by decide) (other.weaken (by decide))
  · refine ⟨'^', .caret, rfl, rfl, fun one other => .weaken power ?_⟩
    exact .power (one.weaken (by decide)) rfl (other.weaken (by decide))
  · refine ⟨';', .semicolon, rfl, rfl, fun one other => ?_⟩
    exact .sequence (one.weaken (by decide)) rfl (other.weaken (by decide))

/-- Texts with commas between them, after the first one. -/
theorem toList_intercalate_cons (first : String) (others : List String) :
    (String.intercalate "," (first :: others)).toList =
      first.toList ++ others.flatMap fun text => ',' :: text.toList := by
  -- A comma goes before every text but the first, which is how the tokens are grouped too.
  induction others generalizing first with
  | nil => simp
  | cons second others ih =>
    rw [String.intercalate_cons_cons, String.toList_append, String.toList_append, ih]
    simp

/-- Texts that are all there are joined. -/
theorem joinArguments_some (texts : List String) :
    joinArguments (texts.map some) = .ok (String.intercalate "," texts) := by
  -- No argument is missing its text, so none is reported.
  have complete : (texts.map some).findIdx? Option.isNone = none := by
    simp [List.findIdx?_eq_none_iff]
  have plain : (texts.map some).map Label.plain = texts := by
    rw [List.map_map]
    exact List.map_id texts
  rw [joinArguments, complete, plain]

/-- What is written of further arguments is lexed as their tokens, each behind its comma. -/
theorem spells_arguments {args : List Expr}
    (all : ∀ arg ∈ args, ∃ text tokens, Spells arg text tokens) :
    ∃ (texts : List String) (others : List Argument),
      formatAll args = .ok (texts.map some) ∧ others.map Argument.value = respelledAll args ∧
        (∀ other ∈ others, other.comma.type = .kind .comma) ∧
        (∀ other ∈ others, Derives .sequence other.tokens other.value) ∧
        LexesAs (texts.flatMap fun text => ',' :: text.toList) (others.flatMap Argument.all) := by
  induction args with
  | nil =>
    refine ⟨[], [], rfl, rfl, by simp, by simp, ?_⟩
    intro rest later parted lexed
    exact lexed
  | cons arg args ih =>
    simp only [List.mem_cons, forall_eq_or_imp] at all
    obtain ⟨⟨text, tokens, spelled⟩, more⟩ := all
    obtain ⟨texts, others, format, values, commas, derived, lexes⟩ := ih more
    refine ⟨text :: texts, ⟨mark .comma, signTokens arg.signed ++ tokens, arg.respelled⟩ :: others,
      ?_, by simp [values, respelledAll, respelled], ?_, ?_, ?_⟩
    · simp [formatAll, spelled.format, format, bind, Except.bind, pure, Except.pure]
    · simpa using ⟨rfl, commas⟩
    · exact List.forall_mem_cons.2 ⟨spelled.whole.weaken (by decide), derived⟩
    · intro rest later parted lexed
      -- What follows the argument is a comma, or what follows all arguments.
      have behind : Parted ((texts.flatMap fun text => ',' :: text.toList) ++ rest) := by
        cases texts with
        | nil => exact parted
        | cons next texts => exact .cons ',' _ rfl
      have argument := spelled.lexes _ _ behind (lexes rest later parted lexed)
      simpa [Argument.all] using lexes_mark ',' .comma rfl argument

/-- A name is written as itself. -/
theorem spells_name {text : String} (named : isName text = true) :
    Spells (.name (some text)) text [.ofKind .name text] where
  format := rfl
  lexes := fun _ _ parted lexed => .name named parted lexed
  derives := .tighter rfl (.name rfl)

/-- A whole number is read from its digits, wherever something else follows them. -/
theorem spells_digits {value : Nat} (short : isWritable value = true) :
    LexesAs (toString value).toList [.ofKind .number (toString value)] ∧
      Derives .suffix [.ofKind .number (toString value)] (.number (.int value)) := by
  have digits : (toString value).toList = Nat.toDigits 10 value := by
    rw [Nat.toString_eq_ofList_toDigits, String.toList_ofList]
  have some : (toString value).toList ≠ [] := by
    rw [digits]
    exact Nat.toDigits_ne_nil
  have inside : ∀ c ∈ (toString value).toList, isDigit c = true := by
    rw [digits]
    exact fun c => isDigit_of_mem_toDigits
  -- The limit on reading digits is the limit on writing them.
  have few : ¬readingLimit < (Nat.toDigits 10 value).length := Nat.not_lt.2 (isWritable_iff.1 short)
  have read : readNumber (.some (toString value)) = .ok (.int value) := by
    rw [readNumber_digits some inside, digits, digitsValue_toDigits, if_neg few]
  exact ⟨fun _ _ parted lexed => .digits some inside parted lexed, .tighter rfl (.number rfl read)⟩

/-- A whole number below zero is written in the digits of its magnitude, behind a sign. -/
theorem toList_toString_negative {value : Int} (negative : value < 0) :
    (toString value).toList = '-' :: (toString value.natAbs).toList := by
  cases value with
  | ofNat value => cases negative
  | negSucc value =>
    have written : toString (Int.negSucc value) = "-" ++ toString (value + 1) := rfl
    rw [written, String.toList_append]
    rfl

/-- A whole number is written in its digits, behind a sign if it is negative. -/
theorem spells_number {value : Int} (short : isWritable value = true) :
    Spells (.number (.int value)) (toString value)
      [.ofKind .number (toString value.natAbs)] := by
  have format : (Expr.number (.int value)).format = .ok (some (toString value)) := by
    simp only [Expr.format, Number.format, intText, short, if_true]
    rfl
  -- A sign plays no part in how many digits there are.
  have magnitude : isWritable value.natAbs = true := by
    rw [isWritable, Int.natAbs_natCast]
    exact short
  obtain ⟨lexes, derived⟩ := spells_digits magnitude
  refine ⟨format, ?_, derived⟩
  by_cases negative : value < 0
  · -- The sign is a punctuator, so nothing can run into it.
    have sign : (Expr.number (.int value)).signed = true := by simp [signed, negative]
    rw [sign, toList_toString_negative negative]
    intro rest later parted lexed
    exact lexes_mark '-' .minus rfl (lexes rest later parted lexed)
  · have plain : (Expr.number (.int value)).signed = false := by simp [signed, negative]
    obtain ⟨magnitude, rfl⟩ := Int.eq_ofNat_of_zero_le (Int.not_lt.1 negative)
    rw [plain]
    exact lexes

section

variable {inner left right other : Expr} {text leftText rightText otherText : String}
  {tokens leftTokens rightTokens otherTokens : List Token}

/-- An assignment is written in parentheses. -/
theorem spells_assign {target : String} (named : isName target = true)
    (value : Spells inner text tokens) :
    ∃ text tokens, Spells (.assign (some target) inner) text tokens := by
  have format : (Expr.assign (some target) inner).format =
      .ok (some ("(" ++ target ++ "=" ++ text ++ ")")) := by
    simp [Expr.format, value.format, bind, Except.bind, pure, Except.pure, Label.plain]
  -- The sign of the assignment keeps the name from running into the value.
  have lexes : LexesAs (target.toList ++ '=' :: text.toList)
      ([.ofKind .name target] ++ mark .assign :: (signTokens inner.signed ++ tokens)) := by
    intro rest later parted lexed
    have behind := lexes_mark '=' .assign rfl (value.lexes rest later parted lexed)
    simpa using Lexes.name named (.cons '=' _ rfl) behind
  have name : Derives .conditional [.ofKind .name target] (.name (some target)) :=
    (spells_name named).derives.weaken (by decide)
  have derived : Derives .assignment
      ([.ofKind .name target] ++ mark .assign :: (signTokens inner.signed ++ tokens))
      (.assign (some target) inner.respelled) := .assign name rfl (value.whole.weaken (by decide))
  exact ⟨_, _, spells_group format rfl (by simp) lexes (derived.weaken (by decide))⟩

/-- An operator is written before its operand. -/
theorem spells_pre {op : String} (known : op ∈ ["+", "-", "~", "!"])
    (operand : Spells inner text tokens) :
    ∃ text tokens, Spells (.pre (some op) inner) text tokens := by
  obtain ⟨c, kind, found, same, rfl, sign⟩ := sign_of_known known
  have format : (Expr.pre (some kind.symbol) inner).format =
      .ok (some ("(" ++ kind.symbol ++ text ++ ")")) := by
    simp [Expr.format, operand.format, bind, Except.bind, pure, Except.pure, Label.plain]
  -- The operator is a punctuator, so nothing can run into it.
  have lexes : LexesAs (c :: text.toList) (mark kind :: (signTokens inner.signed ++ tokens)) := by
    intro rest later parted lexed
    exact lexes_mark c kind found (operand.lexes rest later parted lexed)
  have derived : Derives .unary (mark kind :: (signTokens inner.signed ++ tokens))
      (.pre (some kind.symbol) inner.respelled) := .pre sign operand.whole
  exact ⟨_, _, spells_group format rfl (by simp [same]) lexes (derived.weaken (by decide))⟩

/-- The one operator that does is written after its operand, and is read before its sign. -/
theorem spells_post (operand : Spells inner text tokens) :
    ∃ text tokens, Spells (.post (some "!") inner) text tokens := by
  have format : (Expr.post (some "!") inner).format = .ok (some ("(" ++ text ++ "!" ++ ")")) := by
    simp [Expr.format, operand.format, bind, Except.bind, pure, Except.pure, Label.plain]
  -- The operand is written first and ends in front of a punctuator.
  have lexes : LexesAs (text.toList ++ ['!'])
      (signTokens inner.signed ++ (tokens ++ [mark .bang])) := by
    intro rest later parted lexed
    simpa using operand.lexes _ _ (.cons '!' rest rfl) (lexes_mark '!' .bang rfl lexed)
  have derived : Derives .suffix (tokens ++ [mark .bang]) (.post (some "!") inner.unsigned) :=
    .post operand.derives rfl
  exact ⟨_, _, spells_group format rfl (by simp) lexes
    ((derives_withSign inner.signed derived).weaken (by decide))⟩

/-- An operator is written between its operands. -/
theorem spells_bin {op : String} (known : op ∈ ["+", "-", "*", "/", "^", ";"])
    (one : Spells left leftText leftTokens) (two : Spells right rightText rightTokens) :
    ∃ text tokens, Spells (.bin left (some op) right) text tokens := by
  obtain ⟨c, kind, found, same, joins⟩ := binary_of_known known
  have format : (Expr.bin left (some op) right).format =
      .ok (some ("(" ++ leftText ++ op ++ rightText ++ ")")) := by
    simp [Expr.format, one.format, two.format, bind, Except.bind, pure, Except.pure, Label.plain]
  -- Both operands end in front of a punctuator: the operator, or the parenthesis around it all.
  have lexes : LexesAs (leftText.toList ++ c :: rightText.toList)
      ((signTokens left.signed ++ leftTokens) ++
        mark kind :: (signTokens right.signed ++ rightTokens)) := by
    intro rest later parted lexed
    have behind := lexes_mark c kind found (two.lexes rest later parted lexed)
    simpa using one.lexes _ _ (.cons c _ (by simp [found])) behind
  exact ⟨_, _, spells_group format rfl (by simp [same]) lexes (joins one.whole two.whole)⟩

/-- A conditional is written with its two arms. -/
theorem spells_cond (condition : Spells inner text tokens)
    (one : Spells left leftText leftTokens) (two : Spells right rightText rightTokens) :
    ∃ text tokens, Spells (.cond inner left right) text tokens := by
  have format : (Expr.cond inner left right).format =
      .ok (some ("(" ++ text ++ "?" ++ leftText ++ ":" ++ rightText ++ ")")) := by
    simp [Expr.format, condition.format, one.format, two.format, bind, Except.bind, pure,
      Except.pure, Label.plain]
  have lexes : LexesAs (text.toList ++ '?' :: (leftText.toList ++ ':' :: rightText.toList))
      ((signTokens inner.signed ++ tokens) ++
        mark .question :: ((signTokens left.signed ++ leftTokens) ++
          mark .colon :: (signTokens right.signed ++ rightTokens))) := by
    intro rest later parted lexed
    -- The text is built from its end, each part in front of the punctuator behind it.
    have second := lexes_mark ':' .colon rfl (two.lexes rest later parted lexed)
    have first := lexes_mark '?' .question rfl (one.lexes _ _ (.cons ':' _ rfl) second)
    simpa using condition.lexes _ _ (.cons '?' _ rfl) first
  have derived : Derives .conditional
      ((signTokens inner.signed ++ tokens) ++
        mark .question :: ((signTokens left.signed ++ leftTokens) ++
          mark .colon :: (signTokens right.signed ++ rightTokens)))
      (.cond inner.respelled left.respelled right.respelled) :=
    .cond (condition.whole.weaken (by decide)) rfl (one.whole.weaken (by decide)) rfl
      (two.whole.weaken (by decide))
  exact ⟨_, _, spells_group format rfl (by simp) lexes (derived.weaken (by decide))⟩

/-- A call is written with its arguments, and needs no parentheses around it. -/
theorem spells_call {args : List Expr} (callee : Spells inner text tokens)
    (all : ∀ arg ∈ args, ∃ text tokens, Spells arg text tokens) :
    ∃ text tokens, Spells (.call inner args) text tokens := by
  cases args with
  | nil =>
    -- Without arguments there is nothing between the parentheses.
    have format : (Expr.call inner []).format = .ok (some (text ++ "(" ++ "" ++ ")")) := by
      simp [Expr.format, formatAll, joinArguments, callee.format, bind, Except.bind, pure,
        Except.pure, Label.plain]
    refine ⟨_, tokens ++ [mark .lparen, mark .rparen], format, ?_, .callNone callee.derives rfl rfl⟩
    intro rest later parted lexed
    have behind := lexes_mark '(' .lparen rfl (lexes_mark ')' .rparen rfl lexed)
    simpa [signed] using callee.lexes _ _ (.cons '(' _ rfl) behind
  | cons first more =>
    simp only [List.mem_cons, forall_eq_or_imp] at all
    obtain ⟨⟨firstText, firstTokens, argument⟩, all⟩ := all
    obtain ⟨texts, others, formats, values, commas, derived, lexes⟩ := spells_arguments all
    -- The arguments are written with commas between them, the first one without.
    have joined := joinArguments_some (firstText :: texts)
    have format : (Expr.call inner (first :: more)).format =
        .ok (some (text ++ "(" ++ String.intercalate "," (firstText :: texts) ++ ")")) := by
      rw [List.map_cons] at joined
      simp [Expr.format, formatAll, argument.format, formats, joined, callee.format, bind,
        Except.bind, pure, Except.pure, Label.plain]
    have read : Derives .suffix
        (tokens ++ mark .lparen :: ((signTokens first.signed ++ firstTokens) ++
          (others.flatMap Argument.all ++ [mark .rparen])))
        (.call inner.unsigned (first.respelled :: others.map Argument.value)) :=
      .call callee.derives rfl (argument.whole.weaken (by decide)) commas derived rfl
    rw [values] at read
    refine ⟨_, _, format, ?_, read⟩
    intro rest later parted lexed
    have behind := lexes _ _ (.cons ')' rest rfl) (lexes_mark ')' .rparen rfl lexed)
    -- What follows the first argument is a comma or the closing parenthesis.
    have apart : Parted ((texts.flatMap fun text => ',' :: text.toList) ++ ')' :: rest) := by
      cases texts with
      | nil => exact .cons ')' rest rfl
      | cons next texts => exact .cons ',' _ rfl
    have inside := lexes_mark '(' .lparen rfl (argument.lexes _ _ apart behind)
    have whole := callee.lexes _ _ (.cons '(' _ rfl) inside
    rw [String.toList_append, String.toList_append, String.toList_append, toList_intercalate_cons]
    simpa [signed] using whole

end

/-- Every expression with whole numbers that are not too long is written and read as respelled. -/
theorem Worded.spells {expr : Expr}
    (worded : Worded (fun value => ∃ whole, value = .int whole ∧ isWritable whole = true) expr) :
    ∃ text tokens, Spells expr text tokens := by
  -- The induction is on the expression. All but names, numbers and calls are in parentheses, and
  -- a call ends in one, so that only a sign can be taken for an operator on what follows.
  induction worded with
  | name named => exact ⟨_, _, spells_name named⟩
  | number known =>
    obtain ⟨whole, rfl, short⟩ := known
    exact ⟨_, _, spells_number short⟩
  | assign named inner ih =>
    obtain ⟨text, tokens, value⟩ := ih
    exact spells_assign named value
  | pre known inner ih =>
    obtain ⟨text, tokens, operand⟩ := ih
    exact spells_pre known operand
  | post inner ih =>
    obtain ⟨text, tokens, operand⟩ := ih
    exact spells_post operand
  | bin one known other ihOne ihOther =>
    obtain ⟨leftText, leftTokens, left⟩ := ihOne
    obtain ⟨rightText, rightTokens, right⟩ := ihOther
    exact spells_bin known left right
  | cond inner one two ih ihOne ihTwo =>
    obtain ⟨text, tokens, condition⟩ := ih
    obtain ⟨chosenText, chosenTokens, chosen⟩ := ihOne
    obtain ⟨otherText, otherTokens, other⟩ := ihTwo
    exact spells_cond condition chosen other
  | call inner all ih ihAll =>
    obtain ⟨text, tokens, callee⟩ := ih
    exact spells_call callee ihAll

end Climb.Expr
