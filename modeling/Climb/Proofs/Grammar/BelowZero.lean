import Mathlib.Data.Fintype.EquivFin
import Climb.Proofs.Grammar.Failing
import Climb.Proofs.Grammar.PostOrder
import Climb.Proofs.Grammar.Registration

/-! A rule is found missing only where an operand is read below zero. -/

namespace Climb

variable {N α : Type}

/-- The failure is that a token was taken to continue an expression and has no rule for it. -/
def Error.IsMissingTail (failure : Error) : Prop :=
  ∃ token, failure = .parse (.noTailRule token)

/-- An end that comes too early is no missing rule. -/
theorem Error.not_isMissingTail_endOfInput (expected : Option TokenType) :
    ¬(Error.parse (.endOfInput expected)).IsMissingTail :=
  fun ⟨_, other⟩ => by cases other

/-- A token that starts no expression is not taken to continue one. -/
theorem Error.not_isMissingTail_noHeadRule (token : Token) :
    ¬(Error.parse (.noHeadRule token)).IsMissingTail :=
  fun ⟨_, other⟩ => by cases other

/-- An outcome that is no report of a missing rule. -/
def Spares (outcome : Except Error α) : Prop :=
  ∀ failure, outcome = .error failure → ¬failure.IsMissingTail

/-- What is built reports nothing. -/
theorem spares_ok (node : α) : Spares (.ok node : Except Error α) :=
  fun _ failed => by cases failed

/-- A rule whose builder reports no missing rule. -/
def HeadRule.Spares : HeadRule N → Prop
  | leaf _ build => ∀ token, Climb.Spares (build token)
  | operator _ build _ => ∀ token operand, Climb.Spares (build token operand)
  | form _ _ build => ∀ token parts, Climb.Spares (build token parts)

/-- A rule whose builder reports no missing rule. -/
def TailRule.Spares : TailRule N → Prop
  | operator _ build _ => ∀ token operand, Climb.Spares (build token operand)
  | bare _ build _ => ∀ token operand, Climb.Spares (build token operand)
  | binary _ build _ _ => ∀ token left right, Climb.Spares (build token left right)
  | form _ _ build _ => ∀ token parts, Climb.Spares (build token parts)

/-- A leaf or an operator whose builder reports no missing rule, or no rule at all. -/
def Candidate.IsDiscreet : Candidate N → Prop
  | head rule => rule.IsOperator ∧ rule.Spares
  | tail rule => rule.IsOperator ∧ rule.Spares
  | other _ => True

namespace Grammar

open Climb.Parser

/-- A grammar of leaves and operators whose strengths are those of its rules. -/
structure IsDiscreet (grammar : Grammar N) : Prop where
  regular : grammar.Regular
  heads : ∀ {token rule}, grammar.head? token = some rule → rule.IsOperator ∧ rule.Spares
  tails : ∀ {token rule}, grammar.tail? token = some rule → rule.IsOperator ∧ rule.Spares

/-- Some operand is read at a strength below zero. -/
def ReadsBelowZero (grammar : Grammar N) : Prop :=
  ∃ token strength, (grammar.operandStrength? token = some strength ∨
    grammar.rightStrength? token = some strength) ∧ strength < 0

/-- Some token is an expression by itself, and stays one when it is interpreted. -/
def HasLeaf (grammar : Grammar N) (interpreter : Option (Interpreter N)) : Prop :=
  ∃ token node start, grammar.leafNode token = .ok node ∧
    interpreted interpreter node = .ok start

variable {grammar : Grammar N} {interpreter : Option (Interpreter N)}

/-- In a regular grammar a token binds exactly if it has a rule to continue an expression. -/
theorem Regular.tail?_isSome_iff (regular : grammar.Regular) (token : Token) :
    (grammar.tail? token).isSome ↔ 0 < grammar.strengthOf (some token) := by
  simp only [tail?, strengthOf, regular.faithful, Option.isSome_map]
  cases found : grammar.tails.get? token.type with
  | none => simp
  | some pair =>
    -- The strength beside the rule is positive, like all of the table.
    obtain ⟨entry, member, rfl⟩ := Table.mem_of_get? found
    have positive := regular.positive entry member
    simp only [Option.isSome_some, Option.map_some, Option.getD_some, true_iff]
    omega

/-- Requests for leaves and operators make a discreet grammar. -/
theorem isDiscreet_extend {requests : List (Registration N)}
    (discreet : ∀ request ∈ requests, ∀ candidate, request.offer = .ok candidate →
      candidate.IsDiscreet) : (({} : Grammar N).extend requests).IsDiscreet := by
  -- Whatever a table holds was offered by one of the requests.
  have offered : ∀ place entry, (({} : Grammar N).extend requests).held? place = some entry →
      entry.candidate.IsDiscreet := by
    intro place entry held
    rw [held?_extend_empty] at held
    obtain ⟨-, request, asked, grants⟩ := Registration.grants_of_lastGranted held
    exact discreet request asked _ grants.offered
  refine ⟨regular_empty.extend requests, fun {token rule} found => ?_, fun {token rule} found => ?_⟩
  · exact offered (.head, token.type) (.head token.type rule) (by
      rw [head?] at found
      simp [held?, found])
  · rw [tail?, Option.map_eq_some_iff] at found
    obtain ⟨pair, located, rfl⟩ := found
    exact offered (.tail, token.type) (.tail token.type pair.1 pair.2) (by simp [held?, located])

section

variable (discreet : grammar.IsDiscreet) {operand : Int → Parser N N} {bound : Nat} {token : Token}
  {tokens rest : List Token} {failure : Error} {left : N}

include discreet

/-- Where a rule is missing at the start of an expression, it is missing in its operand. -/
theorem IsDiscreet.missing_head {rule : HeadRule N} (found : grammar.head? token = some rule)
    (steady : ∀ strength, Steady (operand strength)) (missing : failure.IsMissingTail)
    (failed : (runHead operand bound token rule).Fails tokens failure rest) :
    ∃ strength, grammar.operandStrength? token = some strength ∧
      (operand strength).Fails tokens failure rest := by
  obtain ⟨shape, spares⟩ := discreet.heads found
  cases rule with
  | leaf label build =>
    -- A leaf can only fail to be built, and its builder reports other failures.
    exact absurd missing (spares token failure ((still_built _).fails_iff.1 failed).1)
  | operator label build strength =>
    rcases (runHead_operator_fails steady).1 failed with failed | ⟨right, -, failed⟩
    · exact ⟨strength, by simp [operandStrength?, found], failed⟩
    · exact absurd missing (spares token right failure failed)
  | form label pattern build => exact shape.elim

/-- Where a rule is missing as an expression goes on, it is missing in its right operand. -/
theorem IsDiscreet.missing_tail {rule : TailRule N} (found : grammar.tail? token = some rule)
    (steady : ∀ strength, Steady (operand strength)) (missing : failure.IsMissingTail)
    (failed : (runTail operand bound token left rule).Fails tokens failure rest) :
    ∃ strength, grammar.rightStrength? token = some strength ∧
      (operand strength).Fails tokens failure rest := by
  obtain ⟨shape, spares⟩ := discreet.tails found
  cases rule with
  | operator label build strength =>
    exact absurd missing (spares token left failure ((still_built _).fails_iff.1 failed).1)
  | bare label build own =>
    exact absurd missing (spares token left failure ((still_built _).fails_iff.1 failed).1)
  | binary label build strength associativity =>
    rcases (runTail_binary_fails steady).1 failed with failed | ⟨right, -, failed⟩
    · exact ⟨_, by simp [rightStrength?, found], failed⟩
    · exact absurd missing (spares token left right failure failed)
  | form label pattern build strength => exact shape.elim

variable (calm : ∀ node, Spares (interpreted interpreter node)) (missing : failure.IsMissingTail)

include calm missing

/-- A rule is found missing at no minimum from zero on, unless an operand is read below zero. -/
theorem IsDiscreet.below_zero_of_missing (size : Nat) :
    ∀ {tokens : List Token}, tokens.length = size →
      (∀ {minimum rest}, 0 ≤ minimum →
        (grammar.expression interpreter minimum).Fails tokens failure rest →
          grammar.ReadsBelowZero) ∧
      ∀ {minimum left rest}, 0 ≤ minimum →
        (grammar.resume interpreter minimum left).Fails tokens failure rest →
          grammar.ReadsBelowZero := by
  -- Both readings take a token before they read on, so the induction is on their number.
  induction size using Nat.strongRecOn with
  | ind size ih =>
    intro tokens sized
    -- Behind a first token an operand may fail, or what is resumed behind the operands.
    have behind : ∀ {action : Parser N N} {minimum : Int} {token : Token} {others rest},
        tokens = token :: others → 0 ≤ minimum → Steady action →
        (action.Fails others failure rest → ∃ strength,
          (grammar.operandStrength? token = some strength ∨
            grammar.rightStrength? token = some strength) ∧
          (grammar.expression interpreter strength).Fails others failure rest) →
        FailsWithin interpreter action (grammar.resume interpreter minimum) others failure rest →
          grammar.ReadsBelowZero := by
      rintro action minimum token others rest rfl positive steady within failed
      have shorter : others.length < size := by simp [← sized]
      rcases failed with failed | ⟨built, middle, given, ⟨broken, -⟩ | ⟨start, -, failed⟩⟩
      · obtain ⟨strength, known, failed⟩ := within failed
        -- The operand is read below zero, or else the rule is missing within it as well.
        by_cases negative : strength < 0
        · exact ⟨token, strength, known, negative⟩
        · exact (ih _ shorter rfl).1 (by omega) failed
      · exact absurd missing (calm built failure broken)
      · have length := given.length steady
        exact (ih _ (by omega) rfl).2 positive failed
    constructor
    · intro minimum rest positive failed
      rcases (expression_fails (Nat.le_refl _)).1 failed with
        ⟨-, rfl, -⟩ | ⟨token, others, split, ⟨-, rfl, -⟩ | ⟨rule, found, failed⟩⟩
      · exact absurd missing (Error.not_isMissingTail_endOfInput _)
      · exact absurd missing (Error.not_isMissingTail_noHeadRule _)
      · refine behind split positive (steady_runHead steady_expression _ token rule)
          (fun failed => ?_) failed
        obtain ⟨strength, known, failed⟩ :=
          discreet.missing_head found steady_expression missing failed
        exact ⟨strength, .inl known, failed⟩
    · intro minimum left rest positive failed
      obtain ⟨strong, failed⟩ := (resume_fails (Nat.le_refl _)).1 failed
      rcases failed with ⟨-, rfl, -⟩ | ⟨token, others, rfl, ⟨none, -, -⟩ | ⟨rule, found, failed⟩⟩
      · exact absurd missing (Error.not_isMissingTail_endOfInput _)
      · -- A token that binds tighter than zero has a rule.
        have known := (discreet.regular.tail?_isSome_iff token).2
          (Int.lt_of_le_of_lt positive strong)
        simp [none] at known
      · refine behind rfl positive (steady_runTail steady_expression _ token left rule)
          (fun failed => ?_) failed
        obtain ⟨strength, known, failed⟩ :=
          discreet.missing_tail found steady_expression missing failed
        exact ⟨strength, .inr known, failed⟩

omit calm missing in
/-- Whatever starts an expression and is interpreted starts it with a leaf in the end. -/
theorem IsDiscreet.hasLeaf_of_head {rule : HeadRule N} {built start : N}
    (found : grammar.head? token = some rule)
    (steady : ∀ strength, Steady (operand strength))
    (given : (runHead operand bound token rule).Gives tokens built rest)
    (read : interpreted interpreter built = .ok start)
    (inner : ∀ {strength right}, (operand strength).Gives tokens right rest →
      grammar.HasLeaf interpreter) : grammar.HasLeaf interpreter := by
  cases rule with
  | leaf label build =>
    have node : grammar.leafNode token = .ok built := by
      simpa only [leafNode, found] using (gives_built.1 given).1
    exact ⟨token, built, start, node, read⟩
  | operator label build strength =>
    -- The operand is an expression of its own.
    obtain ⟨right, given, -⟩ := (runHead_operator_gives steady).1 given
    exact inner given
  | form label pattern build => exact (discreet.heads found).1.elim

/-- Where an expression is read, or a rule is found missing in it, there is a leaf. -/
theorem IsDiscreet.hasLeaf (size : Nat) : ∀ {tokens : List Token}, tokens.length = size →
    (∀ {minimum node rest}, (grammar.expression interpreter minimum).Gives tokens node rest →
      grammar.HasLeaf interpreter) ∧
    ∀ {minimum rest}, (grammar.expression interpreter minimum).Fails tokens failure rest →
      grammar.HasLeaf interpreter := by
  -- An operand comes behind the first token, so the induction is on the number of tokens.
  induction size using Nat.strongRecOn with
  | ind size ih =>
    intro tokens sized
    cases tokens with
    | nil =>
      refine ⟨fun given => absurd given expression_gives_nil, fun failed => ?_⟩
      rcases (expression_fails (Nat.le_refl _)).1 failed with ⟨-, rfl, -⟩ | ⟨_, _, split, -⟩
      · exact absurd missing (Error.not_isMissingTail_endOfInput _)
      · cases split
    | cons token others =>
      have operands := ih others.length (by simp [← sized]) rfl
      constructor
      · intro minimum node rest given
        obtain ⟨rule, built, start, middle, found, given, read, -⟩ :=
          (expression_gives_cons (Nat.lt_succ_self _)).1 given
        exact discreet.hasLeaf_of_head found steady_expression given read operands.1
      · intro minimum rest failed
        rcases (expression_fails (Nat.le_refl _)).1 failed with
          ⟨split, -, -⟩ | ⟨_, _, same, ⟨-, rfl, -⟩ | ⟨rule, found, failed⟩⟩
        · cases split
        · exact absurd missing (Error.not_isMissingTail_noHeadRule _)
        · cases same
          rcases failed with failed | ⟨built, middle, given, ⟨broken, -⟩ | ⟨start, read, -⟩⟩
          · obtain ⟨strength, -, failed⟩ :=
              discreet.missing_head found steady_expression missing failed
            exact operands.2 failed
          · exact absurd missing (calm built failure broken)
          · -- The start of the expression is there, and the rule is missing further on.
            exact discreet.hasLeaf_of_head found steady_expression given read operands.1

end

/-- There is always a type that no rule of the second table is for. -/
theorem exists_tail?_eq_none (grammar : Grammar N) :
    ∃ token : Token, grammar.tails.get? token.type = none := by
  have infinite : Infinite TokenType :=
    .of_injective TokenType.number fun one other same => TokenType.number.inj same
  obtain ⟨type, fresh⟩ := Infinite.exists_notMem_finset (grammar.tails.map (·.1)).toFinset
  refine ⟨⟨type, none⟩, ?_⟩
  -- The type is none of those in the table, so the search finds nothing.
  simp only [List.mem_toFinset, List.mem_map, not_exists, not_and] at fresh
  simpa [Table.get?, List.find?_eq_none] using fun key rule member same =>
    fresh (key, rule) member same

section

variable {token ahead : Token} {node start : N}

/-- A leaf is read at any minimum, and what fails behind it fails in the expression. -/
theorem leaf_fails {minimum : Int} {tokens rest : List Token} {failure : Error}
    (leaf : grammar.leafNode token = .ok node) (read : interpreted interpreter node = .ok start)
    (failed : (grammar.resume interpreter minimum start).Fails tokens failure rest) :
    (grammar.expression interpreter minimum).Fails (token :: tokens) failure rest := by
  simp only [leafNode] at leaf
  split at leaf
  · rename_i label build found
    exact (expression_fails (Nat.le_refl _)).2 (.inr ⟨token, tokens, rfl, .inr ⟨_, found,
      .inr ⟨node, tokens, gives_built.2 ⟨leaf, rfl⟩, .inr ⟨start, read, failed⟩⟩⟩⟩)
  · cases leaf

/-- Below zero a leaf is taken to go on with whatever token comes, also with one without a rule. -/
theorem leaf_fails_below_zero (regular : grammar.Regular) {strength : Int} (negative : strength < 0)
    (leaf : grammar.leafNode token = .ok node) (read : interpreted interpreter node = .ok start)
    (lone : grammar.tails.get? ahead.type = none) :
    (grammar.expression interpreter strength).Fails [token, ahead]
      (.parse (.noTailRule ahead)) [] := by
  have weak : grammar.strengthOf (some ahead) = 0 := by
    simp [strengthOf, regular.faithful, lone]
  have missing : grammar.tail? ahead = none := by simp [tail?, lone]
  -- Zero is above the minimum, so the token is taken, and then it has no rule.
  refine leaf_fails leaf read ((resume_fails (Nat.le_refl _)).2 ⟨?_, .inr ⟨ahead, [], rfl,
    .inl ⟨missing, rfl, rfl⟩⟩⟩)
  simpa [weak] using negative

/-- An operand that is read below zero can be given a token that has no rule. -/
theorem missing_of_reads_below_zero (regular : grammar.Regular) (below : grammar.ReadsBelowZero)
    (hasLeaf : grammar.HasLeaf interpreter) :
    ∃ tokens ahead, (grammar.expression interpreter 0).Fails tokens
      (.parse (.noTailRule ahead)) [] := by
  obtain ⟨leaf, node, start, built, read⟩ := hasLeaf
  obtain ⟨ahead, lone⟩ := grammar.exists_tail?_eq_none
  obtain ⟨operator, strength, known, negative⟩ := below
  have failed := leaf_fails_below_zero regular negative built read lone
  rcases known with known | known
  · -- The operator comes first, and then the operand that goes on too far.
    refine ⟨[operator, leaf, ahead], ahead, ?_⟩
    simp only [operandStrength?] at known
    split at known
    · rename_i label build own found
      cases known
      exact (expression_fails (Nat.le_refl _)).2 (.inr ⟨operator, _, rfl, .inr ⟨_, found,
        .inl ((runHead_operator_fails steady_expression).2 (.inl failed))⟩⟩)
    · cases known
  · -- The operator comes after another leaf, which it continues since its strength is positive.
    refine ⟨[leaf, operator, leaf, ahead], ahead, ?_⟩
    simp only [rightStrength?] at known
    split at known
    · rename_i label build own associativity found
      cases known
      have strong := (regular.tail?_isSome_iff operator).1 (by simp [found])
      exact leaf_fails built read ((resume_fails (Nat.le_refl _)).2 ⟨strong,
        .inr ⟨operator, _, rfl, .inr ⟨_, found,
          .inl ((runTail_binary_fails steady_expression).2 (.inl failed))⟩⟩⟩)
    · cases known

end

/--
In a grammar made by requests for leaves and operators, the look-ups of a token's strength and of
its rule agree. A run meets a token that was taken to continue an expression and has no rule exactly
if the grammar reads some operand below zero, and has a leaf to read there.
-/
theorem rule_is_missing_iff_read_below_zero (requests : List (Registration N))
    (interpreter : Option (Interpreter N))
    (discreet : ∀ request ∈ requests, ∀ candidate, request.offer = .ok candidate →
      candidate.IsDiscreet)
    (calm : ∀ node, Spares (interpreted interpreter node)) :
    let grammar := ({} : Grammar N).extend requests
    (∀ token, (grammar.tail? token).isSome ↔ 0 < grammar.strengthOf (some token)) ∧
    ((∃ tokens exhaust token, (grammar.run interpreter (.ofTokens tokens) exhaust).1 =
        .error (.parse (.noTailRule token))) ↔
      grammar.ReadsBelowZero ∧ grammar.HasLeaf interpreter) := by
  intro grammar
  have made : grammar.IsDiscreet := isDiscreet_extend discreet
  refine ⟨made.regular.tail?_isSome_iff, ?_, ?_⟩
  · rintro ⟨tokens, exhaust, token, failed⟩
    have missing : Error.IsMissingTail (.parse (.noTailRule token)) := ⟨token, rfl⟩
    have ends : (Source.ofTokens tokens).feed.Ends := trivial
    rcases (run_error_iff ends rfl).1 failed with ⟨rest, failed⟩ | ⟨-, _, _, _, -, excess⟩
    · -- The expression of the run is read at zero.
      exact ⟨(made.below_zero_of_missing calm missing _ rfl).1 (Int.le_refl 0) failed,
        (made.hasLeaf calm missing _ rfl).2 failed⟩
    · cases excess
  · rintro ⟨below, hasLeaf⟩
    obtain ⟨tokens, ahead, failed⟩ := missing_of_reads_below_zero made.regular below hasLeaf
    have ends : (Source.ofTokens tokens).feed.Ends := trivial
    exact ⟨tokens, false, ahead, (run_error_iff ends rfl).2 (.inl ⟨[], failed⟩)⟩

/-- A leaf, and an operator between operands whose own strength is below the one it binds with. -/
def weakPower : List (Registration OperatorTree) := [
    .leaf (.text "n") "n" fun token => .ok (.leaf token),
    .tail (.text "^")
      (.tail (.binary "^" (fun token left right => .ok (.between left token right)) 0 .right))
      (.int 1)]

/-- An operator that binds at one and reads its right operand below zero misses a rule. -/
theorem weakPower_misses_a_rule :
    let grammar := ({} : Grammar OperatorTree).extend weakPower
    (∀ request ∈ weakPower, ∀ candidate, request.offer = .ok candidate → candidate.IsDiscreet) ∧
      (∀ node : OperatorTree, Spares (interpreted none node)) ∧
      grammar.ReadsBelowZero ∧ grammar.HasLeaf none ∧
      ∃ tokens exhaust token, (grammar.run none (.ofTokens tokens) exhaust).1 =
        .error (.parse (.noTailRule token)) := by
  intro grammar
  have discreet : ∀ request ∈ weakPower, ∀ candidate, request.offer = .ok candidate →
      candidate.IsDiscreet := by
    -- Both rules build a tree whatever they are given, so they report nothing.
    simp only [weakPower, List.forall_mem_cons]
    refine ⟨?_, ?_, by simp⟩
    · intro candidate offered
      cases offered
      exact ⟨trivial, fun token => spares_ok _⟩
    · intro candidate offered
      cases offered
      exact ⟨trivial, fun token left right => spares_ok _⟩
  have calm : ∀ node : OperatorTree, Spares (interpreted none node) := spares_ok
  have below : grammar.ReadsBelowZero := ⟨⟨.text "^", none⟩, -1, .inr rfl, by decide⟩
  have hasLeaf : grammar.HasLeaf none := ⟨⟨.text "n", none⟩, _, _, rfl, rfl⟩
  exact ⟨discreet, calm, below, hasLeaf,
    (rule_is_missing_iff_read_below_zero weakPower none discreet calm).2.2 ⟨below, hasLeaf⟩⟩

/-- A leaf, and an operator before its operand that reads it below zero. -/
def weakSign : List (Registration OperatorTree) := [
    .leaf (.text "n") "n" fun token => .ok (.leaf token),
    .before (.text "-") "-" (fun token operand => .ok (.before token operand)) (.int (-1))]

/-- Both rules are accepted, and the token after the operand is taken and has no rule. -/
theorem weakSign_misses_a_rule :
    let sign : Token := ⟨.text "-", none⟩
    let leaf : Token := ⟨.text "n", none⟩
    (∀ request ∈ weakSign, ∃ entry, request.entry = .ok entry) ∧
      (∀ request ∈ weakSign, ∀ candidate, request.offer = .ok candidate → candidate.IsDiscreet) ∧
      ((({} : Grammar OperatorTree).extend weakSign).run none
        (.ofTokens [sign, leaf, leaf]) false).1 = .error (.parse (.noTailRule leaf)) := by
  intro sign leaf
  refine ⟨?_, ?_, by cbv⟩
  · -- A strength below zero is an integer like any other for a rule that starts an expression.
    simp only [weakSign, List.forall_mem_cons]
    exact ⟨⟨_, rfl⟩, ⟨_, rfl⟩, by simp⟩
  · simp only [weakSign, List.forall_mem_cons]
    refine ⟨?_, ?_, by simp⟩
    · intro candidate offered
      cases offered
      exact ⟨trivial, fun token => spares_ok _⟩
    · intro candidate offered
      cases offered
      exact ⟨trivial, fun token operand => spares_ok _⟩

end Grammar

end Climb
