import Climb.Proofs.Expr.Rounds

/-! The language reads exactly what its strata hold, and as the same expression. -/

namespace Climb.Expr

open Climb.Parser

namespace Stratum

/-- The largest minimum at which an expression of a stratum is read whole. -/
def minimum : Stratum → Int
  | sequence => 0
  | assignment => 1
  | conditional => 2
  | sum => 3
  | product => 4
  | power => 5
  | unary | suffix | atom => 7

/-- The largest strength of a token that does not grow into an expression of a stratum. -/
def follow : Stratum → Int
  | sequence => 0
  | assignment => 1
  | conditional => 2
  | sum => 4
  | product | power => 5
  | unary => 7
  | suffix | atom => 9

/-- Operands are read at no other minimum. -/
theorem minimum_range (stratum : Stratum) : 0 ≤ stratum.minimum ∧ stratum.minimum ≤ 7 := by
  cases stratum <;> decide

/-- A tighter stratum is read whole wherever a weaker one is. -/
theorem minimum_le_tighter {stratum next : Stratum} (step : stratum.tighter? = some next) :
    stratum.minimum ≤ next.minimum ∧ stratum.follow ≤ next.follow := by
  cases stratum <;> cases step <;> decide

/-- What is read whole at the minimum of a stratum is of that stratum or a tighter one. -/
theorem rank_le_of_minimum {lower upper : Stratum} (proper : lower.rank ≤ 7)
    (above : lower.minimum ≤ upper.minimum) : lower.rank ≤ upper.rank := by
  cases lower <;> cases upper <;> simp [minimum, rank] at *

/-- What a stronger token does not grow into is of a tighter stratum. -/
theorem rank_lt_of_follow {lower upper : Stratum} (above : lower.follow < upper.follow) :
    lower.rank < upper.rank := by
  cases lower <;> cases upper <;> simp [follow, rank] at *

end Stratum

/-- An expression that a token of some strength does not grow into may stand before it. -/
theorem Derives.before {next found : Stratum} {tokens : List Token} {expr : Expr}
    {strength : Int} (derived : Derives found tokens expr) (stratum : Stratum)
    (step : stratum.tighter? = some next) (strong : stratum.follow < strength)
    (closed : strength ≤ found.follow) : Derives next tokens expr := by
  -- The stratum of the expression is tighter than the given one, so at least the next one.
  have above := Stratum.rank_lt_of_follow (Int.lt_of_lt_of_le strong closed)
  have rank : next.rank = stratum.rank + 1 := by
    cases stratum <;> cases step <;> rfl
  exact derived.weaken (by omega)

variable {tokens rest final : List Token} {expr node left : Expr} {minimum : Int}

/-- No expression starts with a closing parenthesis. -/
theorem first_of_reads (read : Reads minimum tokens expr rest) :
    ∀ first ∈ tokens.head?, first.type ≠ .kind .rparen := by
  intro first member closes
  cases tokens with
  | nil => cases member
  | cons token others =>
    obtain rfl : token = first := by simpa using member
    obtain ⟨_, _, starts, -⟩ := reads_cons.1 read
    -- None of the types that start an expression is the closing parenthesis.
    cases starts <;> simp_all [signs]

/-- An expression is left alone at a minimum by what does not bind tighter than that. -/
theorem resumes_self (weak : grammar.strengthOf rest.head? ≤ minimum) :
    Resumes minimum expr rest expr rest :=
  (Grammar.resume_gives_stop (Int.not_lt.2 weak)).2 ⟨rfl, rfl⟩

/-- The tokens of further arguments, with a parenthesis at their end, bind nothing. -/
theorem strengthOf_arguments {others : List Argument} {closing : Token} (rest : List Token)
    (commas : ∀ other ∈ others, other.comma.type = .kind .comma)
    (closes : closing.type = .kind .rparen) :
    grammar.strengthOf (others.flatMap Argument.all ++ closing :: rest).head? = 0 := by
  cases others with
  | nil => exact strengthOf_of closes
  | cons other more => exact strengthOf_of (commas other List.mem_cons_self)

/-- Arguments that are read each on its own are read one after the other. -/
theorem further_of_arguments {closing : Token} (rest : List Token)
    (closes : closing.type = .kind .rparen) :
    ∀ {others : List Argument}, (∀ other ∈ others, other.comma.type = .kind .comma) →
      (∀ other ∈ others, ∀ {rest : List Token}, grammar.strengthOf rest.head? ≤ 0 →
        Reads 0 (other.tokens ++ rest) other.value rest) →
      Further (Reads 0) (.kind .comma) (.kind .rparen)
        (others.flatMap Argument.all ++ closing :: rest) (others.map Argument.value) rest := by
  intro others commas reads
  induction others with
  | nil => exact .done closes
  | cons other more ih =>
    simp only [List.mem_cons, forall_eq_or_imp] at commas reads
    -- After an argument comes a comma or the parenthesis, and neither binds.
    have ends := strengthOf_arguments rest commas.2 closes
    have read := reads.1 (Int.le_of_eq ends)
    have further := ih commas.2 fun other member => reads.2 other member
    simpa [Argument.all] using Further.next commas.1 read further

/--
The tokens are read as the expression from the front of any list, and reading resumes behind them,
wherever the stratum allows it.
-/
def ReadAs (stratum : Stratum) (tokens : List Token) (expr : Expr) : Prop :=
  ∀ (minimum : Int) (rest : List Token), minimum ≤ stratum.minimum →
    grammar.strengthOf rest.head? ≤ stratum.follow →
      ∀ (node : Expr) (final : List Token), Resumes minimum expr rest node final →
        Reads minimum (tokens ++ rest) node final

variable {stratum : Stratum} {token : Token} {leftTokens : List Token} {next : Expr}

/-- An operand is read to its end at the minimum of its stratum, if that ends it. -/
theorem ReadAs.operand (whole : ReadAs stratum tokens expr)
    (closed : grammar.strengthOf rest.head? ≤ stratum.follow)
    (weak : grammar.strengthOf rest.head? ≤ stratum.minimum) :
    Reads stratum.minimum (tokens ++ rest) expr rest :=
  whole _ rest (Int.le_refl _) closed expr rest (resumes_self weak)

/-- A left operand is read, and then the operator after it with all that it reads itself. -/
theorem ReadAs.continued {strength : Int} (whole : ReadAs stratum leftTokens left)
    (known : grammar.strengthOf (some token) = strength) (strong : minimum < strength)
    (low : minimum ≤ stratum.minimum) (closed : strength ≤ stratum.follow)
    (continues : Continues Reads left token tokens next rest)
    (resumed : Resumes minimum next rest node final) :
    Reads minimum (leftTokens ++ token :: tokens) node final := by
  -- The loop behind the left operand goes round once more for the operator.
  have round : Resumes minimum left (token :: tokens) node final :=
    (resumes_cons (by omega)).2 ⟨next, rest, continues, resumed⟩
  exact whole minimum _ low (by simpa only [List.head?_cons, known] using closed) node final round

/-- What a stratum holds is read as the expression that it stands for. -/
theorem Derives.readAs (derived : Derives stratum tokens expr) : ReadAs stratum tokens expr := by
  -- The induction is on the derivation. Operands that a rule reads itself end where their
  -- minimum says, and the loop takes every operator after a left operand round once.
  induction derived with
  | name typed =>
    intro minimum rest low closed node final resumed
    exact reads_cons.2 ⟨_, rest, .name typed, resumed⟩
  | number typed read =>
    intro minimum rest low closed node final resumed
    exact reads_cons.2 ⟨_, rest, .number typed read, resumed⟩
  | @group opening closing tokens expr opens inner closes ih =>
    intro minimum rest low closed node final resumed
    -- The closing parenthesis binds nothing, so what is inside ends there.
    have ends : grammar.strengthOf (closing :: rest).head? ≤ 0 :=
      Int.le_of_eq (strengthOf_of closes)
    have whole := reads_cons.2 ⟨_, rest, .group opens (ih.operand ends ends) closes, resumed⟩
    simpa only [List.cons_append, List.append_assoc, List.nil_append] using whole
  | tighter step inner ih =>
    intro minimum rest low closed node final resumed
    have order := Stratum.minimum_le_tighter step
    exact ih minimum rest (Int.le_trans low order.1) (Int.le_trans closed order.2) node final
      resumed
  | post inner typed ih =>
    intro minimum rest low closed node final resumed
    have strong : minimum < 8 := Int.lt_of_le_of_lt low (by decide)
    have whole := ih.continued (strengthOf_of typed) strong low (by decide) (.post typed) resumed
    simpa only [List.append_assoc, List.cons_append, List.nil_append] using whole
  | callNone inner opens closes ih =>
    intro minimum rest low closed node final resumed
    have strong : minimum < 9 := Int.lt_of_le_of_lt low (by decide)
    have whole := ih.continued (strengthOf_of opens) strong low (by decide)
      (.callNone opens closes) resumed
    simpa only [List.append_assoc, List.cons_append, List.nil_append] using whole
  | call inner opens one commas more closes ih ihOne ihMore =>
    intro minimum rest low closed node final resumed
    have strong : minimum < 9 := Int.lt_of_le_of_lt low (by decide)
    -- Every argument ends before the comma or the parenthesis that follows it.
    have ends := Int.le_of_eq (strengthOf_arguments rest commas closes)
    have read := ihOne.operand ends ends
    have further := further_of_arguments rest closes commas fun other member rest weak =>
      (ihMore other member).operand weak weak
    have whole := ih.continued (strengthOf_of opens) strong low (by decide)
      (.call opens (first_of_reads read) read further) resumed
    simpa only [List.append_assoc, List.cons_append, List.nil_append] using whole
  | pre typed inner ih =>
    intro minimum rest low closed node final resumed
    exact reads_cons.2 ⟨_, rest, .pre typed (ih.operand closed closed), resumed⟩
  | power base typed exponent ihBase ihExponent =>
    intro minimum rest low closed node final resumed
    have strong : minimum < 6 := Int.lt_of_le_of_lt low (by decide)
    -- The exponent is read one below the operator's strength, so another power goes into it.
    have whole := ihBase.continued (strengthOf_of typed) strong (Int.le_trans low (by decide))
      (by decide) (.power typed (ihExponent.operand closed closed)) resumed
    simpa only [List.append_assoc, List.cons_append] using whole
  | product one typed other ihOne ihOther =>
    intro minimum rest low closed node final resumed
    have strong : minimum < 5 := Int.lt_of_le_of_lt low (by decide)
    have whole := ihOne.continued (tail?_product typed).2 strong low (by decide)
      (.product typed (ihOther.operand closed closed)) resumed
    simpa only [List.append_assoc, List.cons_append] using whole
  | sum one typed other ihOne ihOther =>
    intro minimum rest low closed node final resumed
    have strong : minimum < 4 := Int.lt_of_le_of_lt low (by decide)
    -- A product after the sum would go on, but the sum's own strength stops it first.
    have read := ihOther.operand (Int.le_trans closed (by decide)) closed
    have whole := ihOne.continued (tail?_sum typed).2 strong low (by decide) (.sum typed read)
      resumed
    simpa only [List.append_assoc, List.cons_append] using whole
  | @cond question colon tokens chosenTokens otherTokens condition chosen other inner asks one
      splits two ih ihOne ihTwo =>
    intro minimum rest low closed node final resumed
    have strong : minimum < 3 := Int.lt_of_le_of_lt low (by decide)
    -- The colon binds nothing, so it ends the first arm, whatever that is.
    have ends : grammar.strengthOf (colon :: (otherTokens ++ rest)).head? ≤ 0 :=
      Int.le_of_eq (strengthOf_of splits)
    have whole := ih.continued (strengthOf_of asks) strong (Int.le_trans low (by decide))
      (by decide) (.cond asks (ihOne.operand ends ends) splits (ihTwo.operand closed closed))
      resumed
    simpa only [List.append_assoc, List.cons_append] using whole
  | assign name typed value ihName ihValue =>
    intro minimum rest low closed node final resumed
    have strong : minimum < 2 := Int.lt_of_le_of_lt low (by decide)
    have whole := ihName.continued (strengthOf_of typed) strong (Int.le_trans low (by decide))
      (by decide) (.assign typed rfl (ihValue.operand closed closed)) resumed
    simpa only [List.append_assoc, List.cons_append] using whole
  | sequence one typed other ihOne ihOther =>
    intro minimum rest low closed node final resumed
    have strong : minimum < 1 := Int.lt_of_le_of_lt low (by decide)
    have whole := ihOne.continued (strengthOf_of typed) strong (Int.le_trans low (by decide))
      (by decide) (.sequence typed (ihOther.operand closed closed)) resumed
    simpa only [List.append_assoc, List.cons_append] using whole

/-- Arguments that are read one after the other are all derived, if each that is read is. -/
theorem arguments_of_further {nodes : List Expr}
    (further : Further (Reads 0) (.kind .comma) (.kind .rparen) tokens nodes rest)
    (sound : ∀ {others rest : List Token} {expr : Expr}, others.length < tokens.length →
      Reads 0 others expr rest → ∃ taken, taken ++ rest = others ∧ Derives .sequence taken expr) :
    ∃ (others : List Argument) (closing : Token),
      others.flatMap Argument.all ++ closing :: rest = tokens ∧
        others.map Argument.value = nodes ∧
        (∀ other ∈ others, other.comma.type = .kind .comma) ∧
        (∀ other ∈ others, Derives .sequence other.tokens other.value) ∧
        closing.type = .kind .rparen := by
  induction further with
  | @done closing rest closes => exact ⟨[], closing, by simp, rfl, by simp, by simp, closes⟩
  | @next comma tokens middle rest node nodes separates read further ih =>
    -- The comma is not part of what the argument is read from, so that is shorter already.
    obtain ⟨taken, rfl, derived⟩ := sound (Nat.lt_succ_self _) read
    -- What is behind an argument is shorter, so whatever is read from it is derived as well.
    obtain ⟨others, closing, rfl, rfl, commas, more, closes⟩ := ih fun shorter read =>
      sound (by simp only [List.length_cons, List.length_append]; omega) read
    refine ⟨⟨comma, taken, node⟩ :: others, closing, by simp [Argument.all], rfl, ?_, ?_, closes⟩
    · simpa using ⟨separates, commas⟩
    · simpa using ⟨derived, more⟩

/-- An expression that was read at a minimum is derived by a stratum that the minimum allows. -/
def SoundAt (minimum : Int) (tokens : List Token) (expr : Expr) (rest : List Token) : Prop :=
  ∃ (found : Stratum) (taken : List Token), taken ++ rest = tokens ∧ Derives found taken expr ∧
    minimum ≤ found.minimum ∧ grammar.strengthOf rest.head? ≤ minimum

/-- Every reading of a list is derived, and so is every way to go on from what is derived. -/
structure Sound (tokens : List Token) : Prop where
  reads : ∀ {minimum : Int} {expr : Expr} {rest : List Token}, 0 ≤ minimum → minimum ≤ 7 →
    Reads minimum tokens expr rest → SoundAt minimum tokens expr rest
  resumes : ∀ {minimum : Int} {found : Stratum} {before : List Token} {left expr : Expr}
    {rest : List Token}, 0 ≤ minimum → Derives found before left → minimum ≤ found.minimum →
      grammar.strengthOf tokens.head? ≤ found.follow →
        Resumes minimum left tokens expr rest → SoundAt minimum (before ++ tokens) expr rest

/-- An operand that is read at the minimum of a stratum is derived by that stratum. -/
theorem Sound.operand (sound : Sound tokens) (stratum : Stratum) (proper : stratum.rank ≤ 7)
    (read : Reads stratum.minimum tokens expr rest) :
    ∃ taken, taken ++ rest = tokens ∧ Derives stratum taken expr ∧
      grammar.strengthOf rest.head? ≤ stratum.minimum := by
  -- The stratum that is found may be tighter than asked for, but never weaker.
  have range := stratum.minimum_range
  obtain ⟨found, taken, split, derived, above, weak⟩ := sound.reads range.1 range.2 read
  exact ⟨taken, split, derived.weaken (Stratum.rank_le_of_minimum proper above), weak⟩

/-- Nothing grows into an expression that ends in an atom or a suffix. -/
theorem strengthOf_le (ahead : Option Token) : grammar.strengthOf ahead ≤ 9 := by
  cases ahead with
  | none => decide
  | some token => exact (strengthOf_bounds token).2.1

variable {others middle before : List Token} {start : Expr}

/-- What a token starts is derived, and nothing behind it grows into that. -/
theorem Starts.derives (starts : Starts Reads token others start middle)
    (sound : ∀ shorter : List Token, shorter.length ≤ others.length → Sound shorter) :
    ∃ (found : Stratum) (taken : List Token), taken ++ middle = token :: others ∧
      Derives found taken start ∧ 7 ≤ found.minimum ∧
      grammar.strengthOf middle.head? ≤ found.follow := by
  cases starts with
  | name typed => exact ⟨.atom, [token], rfl, .name typed, by decide, strengthOf_le _⟩
  | number typed read =>
    exact ⟨.atom, [token], rfl, .number typed read, by decide, strengthOf_le _⟩
  | pre typed read =>
    -- The operand is read at the sign's own strength, and that is where the sign ends too.
    obtain ⟨taken, rfl, operand, weak⟩ :=
      (sound others (Nat.le_refl _)).operand .unary (by decide) read
    exact ⟨.unary, token :: taken, rfl, .pre typed operand, by decide, weak⟩
  | @group closing _ _ _ typed read closes =>
    -- Whatever stopped the inner expression, the group ends with its parenthesis.
    obtain ⟨taken, rfl, inner, -⟩ :=
      (sound others (Nat.le_refl _)).operand .sequence (by decide) read
    exact ⟨.atom, token :: (taken ++ [closing]), by simp, .group typed inner closes, by decide,
      strengthOf_le _⟩

/-- What a token continues is derived, if what it continues is and the token may stand there. -/
theorem Continues.derives {found : Stratum}
    (continues : Continues Reads left token others next middle)
    (sound : ∀ shorter : List Token, shorter.length ≤ others.length → Sound shorter)
    (derived : Derives found before left) (low : minimum ≤ found.minimum)
    (strong : minimum < grammar.strengthOf (some token))
    (closed : grammar.strengthOf (some token) ≤ found.follow) :
    ∃ (reached : Stratum) (taken : List Token), taken ++ middle = before ++ token :: others ∧
      Derives reached taken next ∧ minimum ≤ reached.minimum ∧
      grammar.strengthOf middle.head? ≤ reached.follow := by
  -- All operands are read from the tokens behind, at the minimum of their stratum.
  have behind := sound others (Nat.le_refl _)
  have range := found.minimum_range
  cases continues with
  | sequence typed read =>
    rw [strengthOf_of typed] at strong closed
    -- The right side is of the same stratum, which makes a sequence lean to the right.
    obtain ⟨taken, rfl, right, weak⟩ := behind.operand .sequence (by decide) read
    have one := derived.before .sequence rfl (by decide) closed
    exact ⟨.sequence, before ++ token :: taken, by simp, .sequence one typed right,
      Int.le_of_lt_add_one strong, weak⟩
  | assign typed named read =>
    subst named
    rw [strengthOf_of typed] at strong closed
    obtain ⟨taken, rfl, value, weak⟩ := behind.operand .assignment (by decide) read
    have name := derived.before .assignment rfl (by decide) closed
    exact ⟨.assignment, before ++ token :: taken, by simp, .assign name typed value,
      Int.le_of_lt_add_one strong, weak⟩
  | @cond colon _ middle _ _ _ typed one splits two =>
    rw [strengthOf_of typed] at strong closed
    obtain ⟨first, rfl, chosen, -⟩ := behind.operand .sequence (by decide) one
    -- The second arm is read from behind the colon.
    have further := sound middle (by simp only [List.length_append, List.length_cons]; omega)
    obtain ⟨second, rfl, other, weak⟩ := further.operand .conditional (by decide) two
    have condition := derived.before .conditional rfl (by decide) closed
    exact ⟨.conditional, before ++ token :: (first ++ colon :: second), by simp,
      .cond condition typed chosen splits other, Int.le_of_lt_add_one strong, weak⟩
  | sum typed read =>
    -- The left side may be a sum itself and the right side may not: sums lean to the left.
    rw [(tail?_sum typed).2] at strong closed
    obtain ⟨taken, rfl, other, weak⟩ := behind.operand .product (by decide) read
    have one := derived.before .conditional rfl (by decide) closed
    exact ⟨.sum, before ++ token :: taken, by simp, .sum one typed other,
      Int.le_of_lt_add_one strong, weak⟩
  | product typed read =>
    rw [(tail?_product typed).2] at strong closed
    obtain ⟨taken, rfl, other, weak⟩ := behind.operand .power (by decide) read
    have one := derived.before .sum rfl (by decide) closed
    exact ⟨.product, before ++ token :: taken, by simp, .product one typed other,
      Int.le_of_lt_add_one strong, weak⟩
  | power typed read =>
    rw [strengthOf_of typed] at strong closed
    obtain ⟨taken, rfl, exponent, weak⟩ := behind.operand .power (by decide) read
    have base := derived.before .power rfl (by decide) closed
    exact ⟨.power, before ++ token :: taken, by simp, .power base typed exponent,
      Int.le_of_lt_add_one strong, weak⟩
  | post typed =>
    rw [strengthOf_of typed] at closed
    have operand := derived.before .unary rfl (by decide) closed
    -- Nothing grows into a suffix, so the bound on what follows it is always met.
    exact ⟨.suffix, before ++ [token], by simp, .post operand typed, Int.le_trans low range.2,
      strengthOf_le _⟩
  | @callNone closing _ typed closes =>
    rw [strengthOf_of typed] at closed
    have callee := derived.before .unary rfl (by decide) closed
    exact ⟨.suffix, before ++ [token, closing], by simp, .callNone callee typed closes,
      Int.le_trans low range.2, strengthOf_le _⟩
  | call typed other one further =>
    rw [strengthOf_of typed] at closed
    have callee := derived.before .unary rfl (by decide) closed
    obtain ⟨first, rfl, argument, -⟩ := behind.operand .sequence (by decide) one
    -- Each further argument is read from behind the ones before it.
    obtain ⟨arguments, closing, rfl, rfl, commas, more, closes⟩ :=
      arguments_of_further further fun {shorter _ _} less read => by
        have smaller := sound shorter (by simp only [List.length_append]; omega)
        obtain ⟨taken, split, derived, -⟩ := smaller.operand .sequence (by decide) read
        exact ⟨taken, split, derived⟩
    exact ⟨.suffix, before ++ token :: (first ++ (arguments.flatMap Argument.all ++ [closing])),
      by simp, .call callee typed argument commas more closes, Int.le_trans low range.2,
      strengthOf_le _⟩

/-- Whatever is read is derived, and whatever is derived so far is resumed to what is. -/
theorem sound (size : Nat) : ∀ tokens : List Token, tokens.length = size → Sound tokens := by
  -- Reading and resuming both consume a token before they read on, so the induction is on their
  -- number. It has to cover both, since each calls the other on what is behind that token.
  induction size using Nat.strongRecOn with
  | ind size ih =>
    intro tokens sized
    have shorter : ∀ list : List Token, list.length < tokens.length → Sound list :=
      fun list short => ih list.length (by omega) list rfl
    constructor
    · -- Reading: the first token starts something derived, which is then resumed.
      intro minimum expr rest positive low read
      cases tokens with
      | nil => exact absurd read Grammar.expression_gives_nil
      | cons token others =>
        have behind : ∀ list : List Token, list.length ≤ others.length → Sound list :=
          fun list short => shorter list (Nat.lt_succ_of_le short)
        obtain ⟨start, middle, starts, resumed⟩ := reads_cons.1 read
        obtain ⟨found, taken, split, derived, above, closed⟩ := starts.derives behind
        -- The start takes at least its token, so what is behind it is shorter.
        have less : middle.length ≤ others.length := starts.length
        have whole := (behind middle less).resumes positive derived
          (Int.le_trans low above) closed resumed
        rwa [split] at whole
    · -- Resuming: the token ahead continues what is derived so far, or ends it.
      intro minimum found before left expr rest positive derived low closed resumed
      by_cases strong : minimum < grammar.strengthOf tokens.head?
      · cases tokens with
        | nil => exact absurd strong (Int.not_lt.2 positive)
        | cons token others =>
          have behind : ∀ list : List Token, list.length ≤ others.length → Sound list :=
            fun list short => shorter list (Nat.lt_succ_of_le short)
          obtain ⟨next, middle, continues, resumed⟩ := (resumes_cons strong).1 resumed
          obtain ⟨reached, taken, split, derived, above, closed⟩ :=
            continues.derives behind derived low strong closed
          have less : middle.length ≤ others.length := continues.length
          have whole := (behind middle less).resumes positive derived above closed resumed
          rwa [split] at whole
      · -- The expression ends here, as it was derived before.
        obtain ⟨rfl, rfl⟩ := (Grammar.resume_gives_stop strong).1 resumed
        exact ⟨found, before, rfl, derived, low, Int.not_lt.1 strong⟩

/-- Nothing binds exactly where nothing can continue an expression. -/
theorem weak_iff_no_tail {ahead : Option Token} :
    grammar.strengthOf ahead ≤ 0 ↔ ∀ token ∈ ahead, grammar.tail? token = none := by
  cases ahead with
  | none => simp [Grammar.strengthOf]
  | some token => simpa using (strengthOf_bounds token).2.2

/-- The language reads an expression from the front of a list exactly if it can end there. -/
theorem reads_zero_iff :
    Reads 0 tokens expr rest ↔
      ∃ taken, taken ++ rest = tokens ∧ Derives .sequence taken expr ∧
        ∀ token ∈ rest.head?, grammar.tail? token = none := by
  rw [← weak_iff_no_tail]
  -- One way by soundness at the weakest stratum, the other by reading what is derived.
  constructor
  · exact (sound _ tokens rfl).operand .sequence (by decide)
  · rintro ⟨taken, rfl, derived, weak⟩
    exact derived.readAs.operand weak weak

/-- A list is read to its end as an expression exactly if it is derived as that. -/
theorem ofTokens_ok_iff :
    ofSource (.ofTokens tokens) true = .ok expr ↔ Derives .sequence tokens expr := by
  have ends : (Source.ofTokens tokens).feed.Ends := trivial
  have shown : (Source.ofTokens tokens).feed.cursor = ⟨tokens, none⟩ := rfl
  -- Nothing is left over, so the derivation is of all tokens.
  rw [ofSource, Grammar.run_ok_iff ends shown]
  simp only [forall_const, exists_eq_right, reads_zero_iff]
  simp

/-- No tokens stand for two expressions. -/
theorem Derives.unique {other : Expr} (one : Derives .sequence tokens expr)
    (two : Derives .sequence tokens other) : expr = other := by
  -- Both are what the parser answers on the same list.
  have first : Reads 0 tokens expr [] := reads_zero_iff.2 ⟨tokens, by simp, one, by simp⟩
  have second : Reads 0 tokens other [] := reads_zero_iff.2 ⟨tokens, by simp, two, by simp⟩
  rw [Reads, Gives, first] at second
  simpa using second

/--
A list is parsed as an expression exactly if the weakest stratum holds it as that. If it need not
be used up, the same goes for a front of the list behind which nothing can continue an expression.
No list stands for two expressions.
-/
theorem parses_exactly_what_is_derived (tokens : List Token) (expr : Expr) :
    (ofSource (.ofTokens tokens) true = .ok expr ↔ Derives .sequence tokens expr) ∧
    (∀ rest,
      (ofSource (.ofTokens tokens) false = .ok expr ∧
        (grammar.run none (.ofTokens tokens) false).2.buffer.cursor.tokens = rest) ↔
        ∃ taken, taken ++ rest = tokens ∧ Derives .sequence taken expr ∧
          ∀ token ∈ rest.head?, grammar.tail? token = none) ∧
    ∀ other, Derives .sequence tokens expr → Derives .sequence tokens other → expr = other := by
  have ends : (Source.ofTokens tokens).feed.Ends := trivial
  have shown : (Source.ofTokens tokens).feed.cursor = ⟨tokens, none⟩ := rfl
  refine ⟨ofTokens_ok_iff, fun rest => ?_, fun other => Derives.unique⟩
  -- Behind a front of the list the tokens that are left are those that cannot continue it.
  rw [ofSource, Grammar.run_gives ends shown, ← reads_zero_iff]
  simp

/-- A sign binds tighter than the difference before it, and a suffix tighter than the sign. -/
theorem subtracted_negation_is_read :
    let name (text : String) : Token := ⟨.kind .name, some text⟩
    let minus : Token := ⟨.kind .minus, some "-"⟩
    let bang : Token := ⟨.kind .bang, some "!"⟩
    let tokens := [name "a", minus, minus, name "b", bang]
    let expr := bin (.name (some "a")) (some "-")
      (.pre (some "-") (.post (some "!") (.name (some "b"))))
    Derives .sequence tokens expr ∧ ofSource (.ofTokens tokens) true = .ok expr := by
  intro name minus bang tokens expr
  -- The derivation follows the tree: the suffix, the sign before it, the difference around both.
  have named : ∀ text, Derives .atom [name text] (.name (some text)) := fun _ => .name rfl
  have operand : Derives .suffix ([name "b"] ++ [bang]) (.post (some "!") (.name (some "b"))) :=
    .post ((named "b").weaken (by decide)) rfl
  have negated : Derives .unary (minus :: [name "b", bang])
      (.pre (some "-") (.post (some "!") (.name (some "b")))) :=
    .pre (by decide) (operand.weaken (by decide))
  have difference : Derives .sum ([name "a"] ++ minus :: [minus, name "b", bang]) expr :=
    .sum ((named "a").weaken (by decide)) (by decide) (negated.weaken (by decide))
  have derived : Derives .sequence tokens expr := difference.weaken (by decide)
  exact ⟨derived, (parses_exactly_what_is_derived tokens expr).1.2 derived⟩

end Climb.Expr
