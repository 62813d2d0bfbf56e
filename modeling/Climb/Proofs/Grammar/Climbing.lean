import Climb.Proofs.Grammar.Reading

/-! Precedence climbing reads exactly the operator trees whose strengths fit together. -/

namespace Climb

/-- What a grammar of operators alone reads, with nothing left out. -/
inductive OperatorTree where
  | leaf (token : Token)
  /-- An operator before its operand. -/
  | before (token : Token) (operand : OperatorTree)
  /-- An operator after its operand. -/
  | after (operand : OperatorTree) (token : Token)
  /-- An operator between its operands. -/
  | between (left : OperatorTree) (token : Token) (right : OperatorTree)
deriving Repr, DecidableEq

/-- A rule that starts a tree, with a builder that records the token and what was read. -/
def HeadRule.IsFree : HeadRule OperatorTree → Prop
  | leaf _ build => ∀ token, build token = .ok (.leaf token)
  | operator _ build _ => ∀ token operand, build token operand = .ok (.before token operand)
  | form _ _ _ => False

/-- A rule that continues a tree, with a builder that records the token and what was read. -/
def TailRule.IsFree : TailRule OperatorTree → Prop
  | operator _ build _ => ∀ token operand, build token operand = .ok (.after operand token)
  | binary _ build _ _ =>
    ∀ token left right, build token left right = .ok (.between left token right)
  | form _ _ _ _ => False
  | bare _ _ _ => False

namespace Grammar

/-- A grammar of leaves and operators alone, which builds the tree of what it reads. -/
structure IsFree (grammar : Grammar OperatorTree) : Prop where
  heads : ∀ entry ∈ grammar.heads, entry.2.IsFree
  tails : ∀ entry ∈ grammar.tails, entry.2.1.IsFree

variable {N : Type}

/-- Whether a token is an expression by itself. -/
def isLeaf (grammar : Grammar N) (token : Token) : Bool :=
  match grammar.head? token with
  | some (.leaf _ _) => true
  | _ => false

/-- The strength at which an operator before its operand reads that operand. -/
def operandStrength? (grammar : Grammar N) (token : Token) : Option Int :=
  match grammar.head? token with
  | some (.operator _ _ strength) => some strength
  | _ => none

/-- Whether a token is an operator after its operand. -/
def isSuffix (grammar : Grammar N) (token : Token) : Bool :=
  match grammar.tail? token with
  | some (.operator _ _ _) => true
  | _ => false

/-- The strength at which an operator between its operands reads the right one. -/
def rightStrength? (grammar : Grammar N) (token : Token) : Option Int :=
  match grammar.tail? token with
  | some (.binary _ _ strength associativity) => some (rightStrength strength associativity)
  | _ => none

end Grammar

namespace OperatorTree

/-- The tokens of a tree, in order. -/
def tokens : OperatorTree → List Token
  | leaf token => [token]
  | before token operand => token :: operand.tokens
  | after operand token => operand.tokens ++ [token]
  | between left token right => left.tokens ++ token :: right.tokens

variable (grammar : Grammar OperatorTree)

/-- Every token has a rule for the part it plays in the tree. -/
def Ruled : OperatorTree → Prop
  | leaf token => grammar.isLeaf token
  | before token operand => (grammar.operandStrength? token).isSome ∧ operand.Ruled
  | after operand token => grammar.isSuffix token ∧ operand.Ruled
  | between left token right => (grammar.rightStrength? token).isSome ∧ left.Ruled ∧ right.Ruled

/-- The strengths at which operands are still being read at the right end of a tree. -/
def rightEdge : OperatorTree → List Int
  | leaf _ => []
  | before token operand => (grammar.operandStrength? token).toList ++ operand.rightEdge
  | after _ _ => []
  | between _ token right => (grammar.rightStrength? token).toList ++ right.rightEdge

/-- Every operator along the left operands, from the root on, binds tighter than the minimum. -/
def ChainAbove (minimum : Int) : OperatorTree → Prop
  | leaf _ => True
  | before _ _ => True
  | after operand token =>
    minimum < grammar.strengthOf (some token) ∧ operand.ChainAbove minimum
  | between left token _ =>
    minimum < grammar.strengthOf (some token) ∧ left.ChainAbove minimum

/-- The chain of every operand that is read at a strength stays above that strength. -/
def OperandsAbove : OperatorTree → Prop
  | leaf _ => True
  | before token operand =>
    (∀ strength ∈ grammar.operandStrength? token, operand.ChainAbove grammar strength) ∧
      operand.OperandsAbove
  | after operand _ => operand.OperandsAbove
  | between left token right =>
    (∀ strength ∈ grammar.rightStrength? token, right.ChainAbove grammar strength) ∧
      left.OperandsAbove ∧ right.OperandsAbove

/-- What is open at the right of a left operand is never weaker than the operator after it. -/
def LeftsClosed : OperatorTree → Prop
  | leaf _ => True
  | before _ operand => operand.LeftsClosed
  | after operand token =>
    (∀ strength ∈ operand.rightEdge grammar, grammar.strengthOf (some token) ≤ strength) ∧
      operand.LeftsClosed
  | between left token right =>
    (∀ strength ∈ left.rightEdge grammar, grammar.strengthOf (some token) ≤ strength) ∧
      left.LeftsClosed ∧ right.LeftsClosed

/-- Whether every token has its rule can be decided. -/
instance decidableRuled : (tree : OperatorTree) → Decidable (tree.Ruled grammar)
  | leaf token => inferInstanceAs (Decidable (grammar.isLeaf token = true))
  | before _ operand =>
    have := decidableRuled operand
    inferInstanceAs (Decidable (_ ∧ _))
  | after operand _ =>
    have := decidableRuled operand
    inferInstanceAs (Decidable (_ ∧ _))
  | between left _ right =>
    have := decidableRuled left
    have := decidableRuled right
    inferInstanceAs (Decidable (_ ∧ _ ∧ _))

/-- Whether a chain stays above a minimum can be decided. -/
instance decidableChainAbove (minimum : Int) :
    (tree : OperatorTree) → Decidable (tree.ChainAbove grammar minimum)
  | leaf _ => inferInstanceAs (Decidable True)
  | before _ _ => inferInstanceAs (Decidable True)
  | after operand _ =>
    have := decidableChainAbove minimum operand
    inferInstanceAs (Decidable (_ ∧ _))
  | between left _ _ =>
    have := decidableChainAbove minimum left
    inferInstanceAs (Decidable (_ ∧ _))

/-- Whether all operands stay above their strengths can be decided. -/
instance decidableOperandsAbove : (tree : OperatorTree) → Decidable (tree.OperandsAbove grammar)
  | leaf _ => inferInstanceAs (Decidable True)
  | before _ operand =>
    have := decidableOperandsAbove operand
    inferInstanceAs (Decidable (_ ∧ _))
  | after operand _ => decidableOperandsAbove operand
  | between left _ right =>
    have := decidableOperandsAbove left
    have := decidableOperandsAbove right
    inferInstanceAs (Decidable (_ ∧ _ ∧ _))

/-- Whether all left operands are closed can be decided. -/
instance decidableLeftsClosed : (tree : OperatorTree) → Decidable (tree.LeftsClosed grammar)
  | leaf _ => inferInstanceAs (Decidable True)
  | before _ operand => decidableLeftsClosed operand
  | after operand _ =>
    have := decidableLeftsClosed operand
    inferInstanceAs (Decidable (_ ∧ _))
  | between left _ right =>
    have := decidableLeftsClosed left
    have := decidableLeftsClosed right
    inferInstanceAs (Decidable (_ ∧ _ ∧ _))

/-- A tree that a minimum allows, and that a token of the given strength does not grow into. -/
structure FitsAt (minimum follow : Int) (tree : OperatorTree) : Prop where
  ruled : tree.Ruled grammar
  chain : tree.ChainAbove grammar minimum
  operands : tree.OperandsAbove grammar
  lefts : tree.LeftsClosed grammar
  edge : ∀ strength ∈ tree.rightEdge grammar, follow ≤ strength

/-- A tree that is read whole: the minimum does not let the token after it go on either. -/
structure CorrectAt (minimum follow : Int) (tree : OperatorTree) : Prop
    extends FitsAt grammar minimum follow tree where
  ends : follow ≤ minimum

variable {grammar} {minimum follow strength : Int} {token : Token} {left right : OperatorTree}

/-- A leaf fits anywhere. -/
theorem fits_leaf (known : grammar.isLeaf token = true) :
    (leaf token).FitsAt grammar minimum follow :=
  ⟨known, trivial, trivial, trivial, by simp [rightEdge]⟩

/-- An operator before a correct operand fits anywhere that its operand may end. -/
theorem fits_before (known : grammar.operandStrength? token = some strength)
    (correct : right.CorrectAt grammar strength follow) :
    (before token right).FitsAt grammar minimum follow where
  ruled := ⟨by simp [known], correct.ruled⟩
  chain := trivial
  operands := ⟨by simpa [known] using correct.chain, correct.operands⟩
  lefts := correct.lefts
  edge := by simpa [rightEdge, known] using ⟨correct.ends, correct.edge⟩

/-- An operator after an operand that it does not grow into leaves nothing open. -/
theorem fits_after (known : grammar.isSuffix token = true)
    (strong : minimum < grammar.strengthOf (some token))
    (fits : left.FitsAt grammar minimum (grammar.strengthOf (some token))) :
    (after left token).FitsAt grammar minimum follow where
  ruled := ⟨known, fits.ruled⟩
  chain := ⟨strong, fits.chain⟩
  operands := fits.operands
  lefts := ⟨fits.edge, fits.lefts⟩
  edge := by simp [rightEdge]

/-- An operator between an operand that it does not grow into and a correct one fits. -/
theorem fits_between (known : grammar.rightStrength? token = some strength)
    (strong : minimum < grammar.strengthOf (some token))
    (fits : left.FitsAt grammar minimum (grammar.strengthOf (some token)))
    (correct : right.CorrectAt grammar strength follow) :
    (between left token right).FitsAt grammar minimum follow where
  ruled := ⟨by simp [known], fits.ruled, correct.ruled⟩
  chain := ⟨strong, fits.chain⟩
  operands := ⟨by simpa [known] using correct.chain, fits.operands, correct.operands⟩
  lefts := ⟨fits.edge, fits.lefts, correct.lefts⟩
  edge := by simpa [rightEdge, known] using ⟨correct.ends, correct.edge⟩

end OperatorTree

/-- A rule that is found for a type is one of the table's. -/
theorem Table.mem_of_get? {R : Type} {table : Table R} {type : TokenType} {rule : R}
    (found : table.get? type = some rule) : ∃ entry ∈ table, entry.2 = rule := by
  simp only [get?, Option.map_eq_some_iff] at found
  obtain ⟨entry, located, same⟩ := found
  exact ⟨entry, List.mem_of_find?_eq_some located, same⟩

namespace Grammar

open Climb.Parser Climb.OperatorTree

variable {grammar : Grammar OperatorTree} (free : grammar.IsFree)

include free

/-- In a free grammar every rule that starts a tree is free. -/
theorem IsFree.head {token : Token} {rule : HeadRule OperatorTree}
    (found : grammar.head? token = some rule) : rule.IsFree := by
  obtain ⟨entry, member, rfl⟩ := Table.mem_of_get? found
  exact free.heads entry member

/-- In a free grammar every rule that continues a tree is free. -/
theorem IsFree.tail {token : Token} {rule : TailRule OperatorTree}
    (found : grammar.tail? token = some rule) : rule.IsFree := by
  simp only [tail?, Option.map_eq_some_iff] at found
  obtain ⟨pair, located, rfl⟩ := found
  obtain ⟨entry, member, rfl⟩ := Table.mem_of_get? located
  exact free.tails entry member

variable {operand : Int → Parser OperatorTree OperatorTree} {bound : Nat} {token : Token}
  {tokens rest : List Token} {tree left : OperatorTree}

/-- A tree is started by a leaf, or by an operator with the operand after it. -/
theorem IsFree.head_gives (steady : ∀ strength, Steady (operand strength)) :
    (∃ rule, grammar.head? token = some rule ∧
      (runHead operand bound token rule).Gives tokens tree rest) ↔
      (grammar.isLeaf token = true ∧ tree = .leaf token ∧ tokens = rest) ∨
        ∃ strength right, grammar.operandStrength? token = some strength ∧
          (operand strength).Gives tokens right rest ∧ tree = .before token right := by
  -- The rule of the token decides; a free one is a leaf or an operator.
  cases found : grammar.head? token with
  | none => simp [isLeaf, operandStrength?, found]
  | some rule =>
    have shape := free.head found
    cases rule with
    | leaf label build =>
      simp [isLeaf, operandStrength?, found, runHead, gives_built, shape token, eq_comm]
    | operator label build strength =>
      simp [isLeaf, operandStrength?, found, runHead_operator_gives steady, shape token, eq_comm]
    | form label pattern build => exact shape.elim

/-- A tree is continued by an operator, with an operand after it or with none. -/
theorem IsFree.tail_gives (steady : ∀ strength, Steady (operand strength)) :
    (∃ rule, grammar.tail? token = some rule ∧
      (runTail operand bound token left rule).Gives tokens tree rest) ↔
      (grammar.isSuffix token = true ∧ tree = .after left token ∧ tokens = rest) ∨
        ∃ strength right, grammar.rightStrength? token = some strength ∧
          (operand strength).Gives tokens right rest ∧ tree = .between left token right := by
  -- The rule of the token decides; a free one has one operand or two.
  cases found : grammar.tail? token with
  | none => simp [isSuffix, rightStrength?, found]
  | some rule =>
    have shape := free.tail found
    cases rule with
    | operator label build strength =>
      simp [isSuffix, rightStrength?, found, runTail, gives_built, shape token, eq_comm]
    | binary label build strength associativity =>
      simp [isSuffix, rightStrength?, found, runTail_binary_gives steady, shape token, eq_comm]
    | form label pattern build strength => exact shape.elim
    | bare label build own => exact shape.elim

variable {minimum : Int}

/-- A free grammar reads a leaf, or an operator with its operand, and resumes from there. -/
theorem IsFree.expression_gives :
    (grammar.expression none minimum).Gives (token :: tokens) tree rest ↔
      ∃ start middle,
        ((grammar.isLeaf token = true ∧ start = .leaf token ∧ tokens = middle) ∨
          ∃ strength right, grammar.operandStrength? token = some strength ∧
            (grammar.expression none strength).Gives tokens right middle ∧
            start = .before token right) ∧
        (grammar.resume none minimum start).Gives middle tree rest := by
  rw [plain_expression_gives (Nat.lt_succ_self _)]
  simp only [free.head_gives steady_expression]

/-- A free grammar continues a tree with an operator and resumes from there. -/
theorem IsFree.resume_gives (strong : minimum < grammar.strengthOf (some token)) :
    (grammar.resume none minimum left).Gives (token :: tokens) tree rest ↔
      ∃ next middle,
        ((grammar.isSuffix token = true ∧ next = .after left token ∧ tokens = middle) ∨
          ∃ strength right, grammar.rightStrength? token = some strength ∧
            (grammar.expression none strength).Gives tokens right middle ∧
            next = .between left token right) ∧
        (grammar.resume none minimum next).Gives middle tree rest := by
  rw [plain_resume_gives (Nat.lt_succ_self _) strong]
  simp only [free.tail_gives steady_expression]

/-- A tree that fits is read from its tokens, and reading resumes behind them. -/
theorem IsFree.gives_of_fits (tree : OperatorTree) : ∀ {minimum : Int} {rest : List Token},
    tree.FitsAt grammar minimum (grammar.strengthOf rest.head?) →
      ∀ {final : OperatorTree} {left : List Token},
        (grammar.resume none minimum tree).Gives rest final left →
          (grammar.expression none minimum).Gives (tree.tokens ++ rest) final left := by
  -- The tree is read from the left, so a left operand is read with the rest of the tree ahead. That
  -- is why the induction carries a reading resumed behind the tree, and not just its end.
  induction tree with
  | leaf token =>
    intro minimum rest fits final left resumed
    exact free.expression_gives.2 ⟨_, rest, .inl ⟨fits.ruled, rfl, rfl⟩, resumed⟩
  | before token operand ih =>
    intro minimum rest fits final left resumed
    obtain ⟨known, ruled⟩ := fits.ruled
    obtain ⟨strength, found⟩ := Option.isSome_iff_exists.1 known
    obtain ⟨above, operands⟩ := fits.operands
    have edge := fits.edge
    simp only [rightEdge, found, Option.toList_some, List.cons_append, List.nil_append,
      List.mem_cons, forall_eq_or_imp] at edge
    -- The operand ends where the whole tree ends, its own strength being open there.
    have ends : (grammar.resume none strength operand).Gives rest operand rest :=
      (resume_gives_stop (by omega)).2 ⟨rfl, rfl⟩
    have read := ih ⟨ruled, above strength found, operands, fits.lefts, edge.2⟩ ends
    exact free.expression_gives.2 ⟨_, rest, .inr ⟨strength, operand, found, read, rfl⟩, resumed⟩
  | after operand token ih =>
    intro minimum rest fits final left resumed
    obtain ⟨suffix, ruled⟩ := fits.ruled
    obtain ⟨strong, chain⟩ := fits.chain
    obtain ⟨closed, lefts⟩ := fits.lefts
    -- The loop has the operand and meets the operator, which the minimum lets through.
    have stepped : (grammar.resume none minimum operand).Gives (token :: rest) final left :=
      (free.resume_gives strong).2 ⟨_, rest, .inl ⟨suffix, rfl, rfl⟩, resumed⟩
    -- What the operator must not grow into is what the tree keeps closed on the left of it.
    have inner : operand.FitsAt grammar minimum (grammar.strengthOf (token :: rest).head?) :=
      ⟨ruled, chain, fits.operands, lefts, closed⟩
    have read := ih inner stepped
    simpa only [tokens, List.append_assoc, List.singleton_append] using read
  | between one token other ihOne ihOther =>
    intro minimum rest fits final left resumed
    obtain ⟨known, oneRuled, otherRuled⟩ := fits.ruled
    obtain ⟨strength, found⟩ := Option.isSome_iff_exists.1 known
    obtain ⟨strong, chain⟩ := fits.chain
    obtain ⟨above, oneOperands, otherOperands⟩ := fits.operands
    obtain ⟨closed, oneLefts, otherLefts⟩ := fits.lefts
    have edge := fits.edge
    simp only [rightEdge, found, Option.toList_some, List.cons_append, List.nil_append,
      List.mem_cons, forall_eq_or_imp] at edge
    -- The right operand is read to its end first, and then the loop goes round once.
    have ends : (grammar.resume none strength other).Gives rest other rest :=
      (resume_gives_stop (by omega)).2 ⟨rfl, rfl⟩
    have right := ihOther ⟨otherRuled, above strength found, otherOperands, otherLefts, edge.2⟩ ends
    have stepped : (grammar.resume none minimum one).Gives (token :: (other.tokens ++ rest))
        final left :=
      (free.resume_gives strong).2
        ⟨_, rest, .inr ⟨strength, other, found, right, rfl⟩, resumed⟩
    have inner : one.FitsAt grammar minimum
        (grammar.strengthOf (token :: (other.tokens ++ rest)).head?) :=
      ⟨oneRuled, chain, oneOperands, oneLefts, closed⟩
    have read := ihOne inner stepped
    simpa only [tokens, List.append_assoc, List.cons_append] using read

/-- What is read is correct, and so is what a tree that fits so far is resumed to. -/
theorem IsFree.correct_of_gives (size : Nat) : ∀ {tokens : List Token}, tokens.length = size →
    (∀ {minimum : Int} {tree : OperatorTree} {rest : List Token},
      (grammar.expression none minimum).Gives tokens tree rest →
        tree.tokens ++ rest = tokens ∧
          tree.CorrectAt grammar minimum (grammar.strengthOf rest.head?)) ∧
    ∀ {minimum : Int} {left tree : OperatorTree} {rest : List Token},
      left.FitsAt grammar minimum (grammar.strengthOf tokens.head?) →
        (grammar.resume none minimum left).Gives tokens tree rest →
          tree.tokens ++ rest = left.tokens ++ tokens ∧
            tree.CorrectAt grammar minimum (grammar.strengthOf rest.head?) := by
  -- Both readings consume a token before they read on, so the induction is on their number.
  induction size using Nat.strongRecOn with
  | ind size ih =>
    intro tokens sized
    constructor
    · -- A reading starts with a leaf or with an operator, and resumes from what that makes.
      intro minimum tree rest read
      cases tokens with
      | nil => exact absurd read expression_gives_nil
      | cons token others =>
        obtain ⟨start, middle, shape, resumed⟩ := free.expression_gives.1 read
        rcases shape with ⟨known, rfl, rfl⟩ | ⟨strength, right, known, operand, rfl⟩
        · exact (ih _ (by simp [← sized]) rfl).2 (fits_leaf known) resumed
        · obtain ⟨split, correct⟩ := (ih _ (by simp [← sized]) rfl).1 operand
          have shorter : middle.length < size := by
            have left := operand.length (steady_expression strength)
            rw [← sized]
            exact Nat.lt_succ_of_le left
          obtain ⟨joined, whole⟩ := (ih _ shorter rfl).2 (fits_before known correct) resumed
          exact ⟨by simpa only [OperatorTree.tokens, List.cons_append, split] using joined, whole⟩
    · intro minimum left tree rest fits resumed
      -- A resumed reading goes round once more, or ends because the token ahead is too weak.
      by_cases strong : minimum < grammar.strengthOf tokens.head?
      · cases tokens with
        | nil => exact absurd resumed (resume_gives_nil strong)
        | cons token others =>
          obtain ⟨next, middle, shape, resumed⟩ := (free.resume_gives strong).1 resumed
          rcases shape with ⟨known, rfl, rfl⟩ | ⟨strength, right, known, operand, rfl⟩
          · obtain ⟨joined, whole⟩ :=
              (ih _ (by simp [← sized]) rfl).2 (fits_after known strong fits) resumed
            exact ⟨by simpa [OperatorTree.tokens] using joined, whole⟩
          · -- The operand ended before a token too weak for it, which keeps the left side closed.
            obtain ⟨split, correct⟩ := (ih _ (by simp [← sized]) rfl).1 operand
            have shorter : middle.length < size := by
              have left := operand.length (steady_expression strength)
              rw [← sized]
              exact Nat.lt_succ_of_le left
            obtain ⟨joined, whole⟩ :=
              (ih _ shorter rfl).2 (fits_between known strong fits correct) resumed
            exact ⟨by simpa [OperatorTree.tokens, split] using joined, whole⟩
      · obtain ⟨rfl, rfl⟩ := (resume_gives_stop strong).1 resumed
        exact ⟨rfl, fits, by omega⟩

/-- A free grammar reads a tree exactly if its tokens come first and it is correct there. -/
theorem IsFree.gives_iff_correct :
    (grammar.expression none minimum).Gives tokens tree rest ↔
      tree.tokens ++ rest = tokens ∧
        tree.CorrectAt grammar minimum (grammar.strengthOf rest.head?) := by
  constructor
  · -- Reading is a special case of both directions: nothing has been read before.
    exact (free.correct_of_gives _ rfl).1
  · rintro ⟨rfl, correct⟩
    exact free.gives_of_fits tree correct.toFitsAt
      ((resume_gives_stop (Int.not_lt.2 correct.ends)).2 ⟨rfl, rfl⟩)

/--
Reading at a minimum answers with a tree and leaves a rest exactly if the tree stands before the
rest and is correct there, given how tightly the rest goes on. There is never a second such tree.
-/
theorem climbing_reads_the_correct_tree (minimum : Int) (tokens : List Token) :
    (∀ tree rest,
      ((grammar.expression none minimum ⟨.ofSource (.ofTokens tokens), []⟩).1 = .ok tree ∧
        (grammar.expression none minimum
          ⟨.ofSource (.ofTokens tokens), []⟩).2.buffer.cursor.tokens = rest) ↔
        tree.tokens ++ rest = tokens ∧
          tree.CorrectAt grammar minimum (grammar.strengthOf rest.head?)) ∧
    ∀ (tree other : OperatorTree) (rest left : List Token),
      tree.tokens ++ rest = tokens →
        tree.CorrectAt grammar minimum (grammar.strengthOf rest.head?) →
      other.tokens ++ left = tokens →
        other.CorrectAt grammar minimum (grammar.strengthOf left.head?) →
      tree = other ∧ rest = left := by
  constructor
  · intro tree rest
    rw [← (steady_expression minimum).gives_iff_fresh, free.gives_iff_correct]
  · intro tree other rest left split correct otherSplit otherCorrect
    -- Both would be the answer of the same parse.
    have one := free.gives_iff_correct.2 ⟨split, correct⟩
    have two := free.gives_iff_correct.2 ⟨otherSplit, otherCorrect⟩
    rw [Gives, one] at two
    simpa using two

omit free

/-- A grammar with a weak operator before its operand and a strength that differs from its own. -/
def mixedGrammar : Grammar OperatorTree where
  heads := [(.text "n", .leaf "n" fun token => .ok (.leaf token)),
    (.text "-", .operator "-" (fun token operand => .ok (.before token operand)) 3)]
  tails := [(.text "!", .operator "!" (fun token operand => .ok (.after operand token)) 2, 2),
    (.text "^", .binary "^" (fun token left right => .ok (.between left token right)) 5 .right, 7)]

/-- The token of a type of that grammar. -/
def mixedToken (name : String) : Token :=
  ⟨.text name, none⟩

/-- The weak operator takes in the power after it, but not the one that binds more weakly still. -/
theorem mixedGrammar_reads :
    let n := mixedToken "n"
    let minus := mixedToken "-"
    let power := mixedToken "^"
    let bang := mixedToken "!"
    let tokens := [n, power, minus, n, power, n, bang, n]
    let tree := OperatorTree.after (.between (.leaf n) power
      (.before minus (.between (.leaf n) power (.leaf n)))) bang
    mixedGrammar.IsFree ∧ tree.tokens ++ [n] = tokens ∧
      tree.CorrectAt mixedGrammar 0 (mixedGrammar.strengthOf (some n)) ∧
      (mixedGrammar.expression none 0 ⟨.ofSource (.ofTokens tokens), []⟩).1 = .ok tree ∧
      (mixedGrammar.expression none 0
        ⟨.ofSource (.ofTokens tokens), []⟩).2.buffer.cursor.tokens = [n] := by
  intro n minus power bang tokens tree
  have free : mixedGrammar.IsFree :=
    ⟨by simp [mixedGrammar, HeadRule.IsFree], by simp [mixedGrammar, TailRule.IsFree]⟩
  -- The conditions can be decided, so the tree is checked against them by evaluation.
  have correct : tree.CorrectAt mixedGrammar 0 (mixedGrammar.strengthOf (some n)) :=
    ⟨⟨by decide, by decide, by decide, by decide, by decide⟩, by decide⟩
  exact ⟨free, rfl, correct,
    ((climbing_reads_the_correct_tree free 0 tokens).1 tree [n]).2 ⟨rfl, correct⟩⟩

end Grammar

end Climb
