import Mathlib
import Climb.Proofs.Grammar.Climbing
import Climb.Proofs.Grammar.Registration

/-! How a chain of one operator nests, by its strength in the table and that of its rule. -/

namespace Climb

variable {N : Type}

/-- The tokens of a chain behind its first operand: an operator and an operand each time. -/
def links (rest : List (Token × Token)) : List Token :=
  rest.flatMap fun link => [link.1, link.2]

/-- Nothing is behind a lone operand. -/
@[simp] theorem links_nil : links [] = [] := rfl

/-- One link is an operator and an operand. -/
@[simp] theorem links_cons (operator operand : Token) (rest : List (Token × Token)) :
    links ((operator, operand) :: rest) = operator :: operand :: links rest := rfl

section

variable (leaf : Token → Except Error N) (join : Token → N → N → Except Error N)

/-- A chain that goes on from a finished left operand, nested to the left. -/
def leftNested : N → List (Token × Token) → Except Error N
  | left, [] => .ok left
  | left, (operator, operand) :: rest => do
    let right ← leaf operand
    let node ← join operator left right
    leftNested node rest

/-- A chain nested to the right. -/
def rightNested : Token → List (Token × Token) → Except Error N
  | operand, [] => leaf operand
  | operand, (operator, next) :: rest => do
    let left ← leaf operand
    let right ← rightNested next rest
    join operator left right

/-- A chain nested on the side of an associativity. -/
def nested : Associativity → Token → List (Token × Token) → Except Error N
  | .left, first, rest => do leftNested leaf join (← leaf first) rest
  | .right, first, rest => rightNested leaf join first rest

end

/-- The side to which a chain nests by its registered strength and the one of right operands. -/
def nestingSide (registered right : Int) : Associativity :=
  if registered ≤ right then .left else .right

/-- An operator at its own strength nests by its associativity. -/
theorem nestingSide_own {own : Int} (associativity : Associativity) (strong : 1 ≤ own) :
    0 ≤ rightStrength own associativity ∧
      nestingSide own (rightStrength own associativity) = associativity := by
  cases associativity with
  | left => exact ⟨by simp only [rightStrength]; omega, if_pos (Int.le_refl own)⟩
  | right =>
    -- One less is below the strength in the table, but not below zero.
    exact ⟨by simp only [rightStrength]; omega, if_neg (by simp only [rightStrength]; omega)⟩

/-- The ways to register an operator between its operands. -/
inductive Route where
  /-- From a builder, a strength and an associativity. -/
  | between
  /-- As a finished rule, in the position that the rule is for. -/
  | either
  /-- As a finished rule that is to continue expressions, at a given strength or at its own. -/
  | tail (given : Datum)

namespace Route

/-- The request for an operator between its operands by this way. -/
def request (route : Route) (type : TokenType) (label : String)
    (build : Token → N → N → Except Error N) (own : Int) (associativity : Associativity) :
    Registration N :=
  match route with
  | between => .between type label build (.int own) (.ok associativity)
  | either => .either type (.tail (.binary label build own associativity))
  | tail given => .tail type (.tail (.binary label build own associativity)) given

/-- The strength that is given besides the rule's own. -/
def given : Route → Datum
  | tail given => given
  | _ => .null

variable {route : Route} {type : TokenType} {label : String}
  {build : Token → N → N → Except Error N} {own : Int} {associativity : Associativity}

/-- Every way offers the same rule. -/
theorem request_offer :
    (route.request type label build own associativity).offer =
      .ok (.tail (.binary label build own associativity)) := by
  cases route <;> rfl

/-- The rule is registered at the strength that is given, or at its own if none is given. -/
theorem strength_of_decisive {registered : Int}
    (decisive : (route.request type label build own associativity).decisive = .int registered) :
    route.given = .null ∧ registered = own ∨ route.given = .int registered := by
  cases route with
  | between => exact .inl ⟨rfl, (Datum.int.inj decisive).symm⟩
  | either => exact .inl ⟨rfl, (Datum.int.inj decisive).symm⟩
  | tail given =>
    -- Nothing given stands for the rule's own strength, and anything else for itself.
    cases given with
    | null => exact .inl ⟨rfl, (Datum.int.inj decisive).symm⟩
    | _ => exact .inr decisive

/-- By every way an accepted request writes the rule at the strength that is given or its own. -/
theorem written_of_accepted {entry : TableEntry N}
    (accepted : (route.request type label build own associativity).entry = .ok entry) :
    ∃ registered, entry = .tail type (.binary label build own associativity) registered ∧
      1 ≤ registered ∧ (route.given = .null ∧ registered = own ∨
        route.given = .int registered) := by
  have grants := Registration.grants_of_entry accepted
  have offered := Except.ok.inj (request_offer.symm.trans grants.offered)
  -- A rule for operators goes into the second table, where it has a strength.
  cases entry with
  | head other rule => cases offered
  | tail other rule registered =>
    cases offered
    obtain ⟨decisive, positive⟩ := grants.strength registered rfl
    have same : other = type := by
      have typed := grants.type
      cases route <;> exact typed
    exact ⟨registered, by rw [same], positive, strength_of_decisive decisive⟩

end Route

namespace Grammar

open Climb.Parser

/-- A grammar with a rule for the operands of a chain and one for its operators. -/
structure Links (grammar : Grammar N) (operand operator : TokenType)
    (leaf : Token → Except Error N) (join : Token → N → N → Except Error N) (own : Int)
    (associativity : Associativity) (registered : Int) : Prop where
  starts : ∀ token : Token, token.type = operand →
    ∃ label, grammar.head? token = some (.leaf label leaf)
  continues : ∀ token : Token, token.type = operator →
    ∃ label, grammar.tail? token = some (.binary label join own associativity)
  binds : ∀ token : Token, token.type = operator → grammar.strengthOf (some token) = registered

namespace Links

variable {grammar : Grammar N} {operand operator : TokenType} {leaf : Token → Except Error N}
  {join : Token → N → N → Except Error N} {own registered : Int} {associativity : Associativity}

/-- A grammar made by requests has the rules that were granted last. -/
theorem of_lastGranted {requests : List (Registration N)} {leafLabel label : String}
    (starts : Registration.lastGranted requests (.head, operand) =
      some (.head operand (.leaf leafLabel leaf)))
    (continues : Registration.lastGranted requests (.tail, operator) =
      some (.tail operator (.binary label join own associativity) registered)) :
    (({} : Grammar N).extend requests).Links operand operator leaf join own associativity
      registered := by
  have faithful := (regular_empty (N := N)).extend requests |>.faithful
  rw [← held?_extend_empty] at starts continues
  -- Both look-ups go by the type alone.
  simp only [held?, Option.map_eq_some_iff, TableEntry.head.injEq] at starts
  simp only [held?, Option.map_eq_some_iff, TableEntry.tail.injEq] at continues
  obtain ⟨_, startsAt, -, rfl⟩ := starts
  obtain ⟨⟨_, _⟩, continuesAt, -, rfl, rfl⟩ := continues
  refine ⟨fun token typed => ⟨leafLabel, ?_⟩, fun token typed => ⟨label, ?_⟩, fun token typed => ?_⟩
  · rw [head?, typed, startsAt]
  · rw [tail?, typed, continuesAt, Option.map_some]
  · rw [strengthOf, faithful, typed, continuesAt, Option.map_some, Option.getD_some]

variable (linked : grammar.Links operand operator leaf join own associativity registered)
  {minimum : Int} {first token : Token} {tokens left : List Token} {node start : N}
  {rest : List (Token × Token)}

include linked

/-- An operand is read as a leaf, and the expression is resumed behind it. -/
theorem expression_gives (typed : token.type = operand) :
    (grammar.expression none minimum).Gives (token :: tokens) node left ↔
      ∃ start, leaf token = .ok start ∧
        (grammar.resume none minimum start).Gives tokens node left := by
  obtain ⟨label, found⟩ := linked.starts token typed
  rw [plain_expression_gives (Nat.lt_succ_self _)]
  constructor
  · rintro ⟨start, middle, ⟨rule, same, read⟩, resumed⟩
    cases found.symm.trans same
    obtain ⟨built, rfl⟩ := gives_built.1 read
    exact ⟨start, built, resumed⟩
  · rintro ⟨start, built, resumed⟩
    exact ⟨start, tokens, ⟨_, found, gives_built.2 ⟨built, rfl⟩⟩, resumed⟩

/-- One operator: its right operand is read at the right strength, and joined to the left one. -/
theorem resume_gives (typed : token.type = operator) (strong : minimum < registered) :
    (grammar.resume none minimum start).Gives (token :: tokens) node left ↔
      ∃ right middle next,
        (grammar.expression none (rightStrength own associativity)).Gives tokens right middle ∧
          join token start right = .ok next ∧
            (grammar.resume none minimum next).Gives middle node left := by
  obtain ⟨label, found⟩ := linked.continues token typed
  rw [← linked.binds token typed] at strong
  rw [plain_resume_gives (Nat.lt_succ_self _) strong]
  constructor
  · rintro ⟨next, middle, ⟨rule, same, read⟩, resumed⟩
    cases found.symm.trans same
    obtain ⟨right, given, joined⟩ := (runTail_binary_gives steady_expression).1 read
    exact ⟨right, middle, next, given, joined, resumed⟩
  · rintro ⟨right, middle, next, given, joined, resumed⟩
    exact ⟨next, middle, ⟨_, found, (runTail_binary_gives steady_expression).2
      ⟨right, given, joined⟩⟩, resumed⟩

omit linked in
/-- An expression ends with the tokens, if its minimum is not below zero. -/
theorem resume_gives_end (positive : 0 ≤ minimum) :
    (grammar.resume none minimum start).Gives [] node left ↔ start = node ∧ left = [] := by
  rw [resume_gives_stop (by simpa [strengthOf] using positive), eq_comm (a := left)]

section

variable (typed : ∀ link ∈ rest, link.1.type = operator ∧ link.2.type = operand)

include typed

/-- An operand takes nothing of the chain behind it where the operators bind no tighter. -/
theorem resume_gives_weak (positive : 0 ≤ minimum) (weak : registered ≤ minimum) :
    (grammar.resume none minimum start).Gives (links rest) node left ↔
      start = node ∧ links rest = left := by
  refine resume_gives_stop ?_
  cases rest with
  | nil => simpa [strengthOf] using positive
  | cons link rest =>
    obtain ⟨token, next⟩ := link
    -- The next token is an operator, and its strength is not above the minimum.
    rw [links_cons, List.head?_cons, linked.binds token (typed _ List.mem_cons_self).1]
    omega

/-- Where right operands end before the next operator, the loop joins one operand after another. -/
theorem resume_gives_leftNested (strong : 1 ≤ registered)
    (weak : registered ≤ rightStrength own associativity) :
    (grammar.resume none 0 start).Gives (links rest) node left ↔
      leftNested leaf join start rest = .ok node ∧ left = [] := by
  -- The induction is on the links, with the operand that has been joined so far carried along.
  induction rest generalizing start with
  | nil => simp [leftNested, resume_gives_end]
  | cons link rest ih =>
    obtain ⟨token, next⟩ := link
    obtain ⟨here, behind⟩ := List.forall_mem_cons.1 typed
    -- The right operand is one leaf, and what is behind it is joined by the loop again.
    rw [links_cons, linked.resume_gives here.1 (by omega)]
    simp only [leftNested, bind_ok_iff, linked.expression_gives here.2]
    constructor
    · rintro ⟨right, middle, next, ⟨built, known, resumed⟩, joined, further⟩
      obtain ⟨rfl, rfl⟩ := (linked.resume_gives_weak behind (by omega) weak).1 resumed
      obtain ⟨nested, ended⟩ := (ih behind).1 further
      exact ⟨⟨built, known, next, joined, nested⟩, ended⟩
    · rintro ⟨⟨right, known, next, joined, nested⟩, ended⟩
      exact ⟨right, _, next, ⟨right, known,
        (linked.resume_gives_weak behind (by omega) weak).2 ⟨rfl, rfl⟩⟩, joined,
        (ih behind).2 ⟨nested, ended⟩⟩

/-- Where right operands go on with the next operator, the first one takes the whole chain. -/
theorem expression_gives_rightNested (firstTyped : first.type = operand)
    (positive : 0 ≤ rightStrength own associativity)
    (strong : rightStrength own associativity < registered)
    (low : 0 ≤ minimum) (high : minimum < registered) :
    (grammar.expression none minimum).Gives (first :: links rest) node left ↔
      rightNested leaf join first rest = .ok node ∧ left = [] := by
  -- The induction is on the links. Every operand but the first is read at the right strength, so
  -- the minimum changes once.
  induction rest generalizing first minimum node left with
  | nil =>
    rw [links_nil, linked.expression_gives firstTyped]
    simp only [resume_gives_end low, rightNested]
    constructor
    · rintro ⟨start, built, rfl, ended⟩
      exact ⟨built, ended⟩
    · rintro ⟨built, ended⟩
      exact ⟨node, built, rfl, ended⟩
  | cons link rest ih =>
    obtain ⟨token, next⟩ := link
    obtain ⟨here, behind⟩ := List.forall_mem_cons.1 typed
    rw [links_cons, linked.expression_gives firstTyped]
    -- The right operand is the chain that is left, so nothing is there to be joined to it.
    simp only [rightNested, bind_ok_iff, linked.resume_gives here.1 high,
      ih behind here.2 positive strong]
    constructor
    · rintro ⟨start, built, right, _, joined, ⟨nested, rfl⟩, known, ended⟩
      obtain ⟨rfl, rfl⟩ := (resume_gives_end low).1 ended
      exact ⟨⟨start, built, right, nested, known⟩, rfl⟩
    · rintro ⟨⟨start, built, right, nested, known⟩, rfl⟩
      exact ⟨start, built, right, [], node, ⟨nested, rfl⟩, known,
        (resume_gives_end low).2 ⟨rfl, rfl⟩⟩

/-- Below zero no chain is an expression: the end of the input seems to go on with it. -/
theorem not_expression_gives_below_zero (firstTyped : first.type = operand)
    (negative : rightStrength own associativity < 0) (strong : 1 ≤ registered) :
    ¬(grammar.expression none (rightStrength own associativity)).Gives (first :: links rest)
      node left := by
  -- The induction is on the links, each of which leads to another operand below zero.
  induction rest generalizing first node left with
  | nil =>
    rw [linked.expression_gives firstTyped]
    rintro ⟨start, -, resumed⟩
    -- The end counts as zero, which is above the minimum, and no token is there to be taken.
    exact Grammar.resume_gives_nil negative resumed
  | cons link rest ih =>
    obtain ⟨token, next⟩ := link
    obtain ⟨here, behind⟩ := List.forall_mem_cons.1 typed
    rw [links_cons, linked.expression_gives firstTyped]
    rintro ⟨start, -, resumed⟩
    -- The operator is taken, and its right operand is no expression either.
    obtain ⟨right, middle, joined, given, -⟩ :=
      (linked.resume_gives here.1 (by omega)).1 resumed
    exact ih behind here.2 given

/-- A chain is read nested to the side on which the registered strength and the right one lie. -/
theorem expression_gives_nested (firstTyped : first.type = operand) (strong : 1 ≤ registered)
    (linking : rest ≠ []) :
    (grammar.expression none 0).Gives (first :: links rest) node left ↔
      (0 ≤ rightStrength own associativity ∧
        nested leaf join (nestingSide registered (rightStrength own associativity)) first rest =
          .ok node) ∧ left = [] := by
  by_cases positive : 0 ≤ rightStrength own associativity
  · simp only [positive, true_and, nestingSide]
    split
    · -- Each operand ends before the next operator, which is left for the loop.
      rename_i weak
      simp only [linked.expression_gives firstTyped, nested, bind_ok_iff,
        linked.resume_gives_leftNested typed strong weak]
      grind
    · -- The first right operand takes every operator behind it.
      rename_i tight
      exact linked.expression_gives_rightNested typed firstTyped positive (by omega)
        (Int.le_refl 0) strong
  · -- The first operator is taken, and already has no right operand.
    simp only [positive, false_and, iff_false]
    obtain ⟨⟨token, next⟩, others, rfl⟩ := List.exists_cons_of_ne_nil linking
    obtain ⟨here, behind⟩ := List.forall_mem_cons.1 typed
    rw [links_cons, linked.expression_gives firstTyped]
    rintro ⟨start, -, resumed⟩
    obtain ⟨right, middle, joined, given, -⟩ := (linked.resume_gives here.1 strong).1 resumed
    exact linked.not_expression_gives_below_zero behind here.2 (by omega) strong given

end

end Links

/--
A chain of one operator nests by two strengths: to the left if the registered one is at most the
strength at which the rule reads its right operand, and else to the right. So it nests by the
associativity wherever the rule is registered at its own strength, as it is by every way that gives
no other. Where the right operand is read below zero, no chain is read at all.
-/
theorem chains_nest_by_registered_and_right_strength (requests : List (Registration N))
    (route : Route) (operand operator : TokenType) (leafLabel label : String)
    (leaf : Token → Except Error N) (join : Token → N → N → Except Error N) (own : Int)
    (associativity : Associativity) (entry : TableEntry N) (first : Token)
    (rest : List (Token × Token)) (exhaust : Bool)
    (accepted : (route.request operator label join own associativity).entry = .ok entry)
    (continues : Registration.lastGranted requests (.tail, operator) = some entry)
    (starts : Registration.lastGranted requests (.head, operand) =
      some (.head operand (.leaf leafLabel leaf)))
    (linking : rest ≠ []) (firstTyped : first.type = operand)
    (typed : ∀ link ∈ rest, link.1.type = operator ∧ link.2.type = operand) :
    let grammar := ({} : Grammar N).extend requests
    let outcome := (grammar.run none (.ofTokens (first :: links rest)) exhaust).1
    let right := rightStrength own associativity
    ∃ registered : Int, 1 ≤ registered ∧
      (route.given = .null ∧ registered = own ∨ route.given = .int registered) ∧
      (∀ node, outcome = .ok node ↔ 0 ≤ right ∧
        nested leaf join (nestingSide registered right) first rest = .ok node) ∧
      (registered = own → ∀ node, outcome = .ok node ↔
        nested leaf join associativity first rest = .ok node) := by
  intro grammar outcome right
  obtain ⟨registered, rfl, strong, given⟩ := Route.written_of_accepted accepted
  have linked : grammar.Links operand operator leaf join own associativity registered :=
    .of_lastGranted starts continues
  have ends : (Source.ofTokens (first :: links rest)).feed.Ends := trivial
  have read : ∀ node, outcome = .ok node ↔ 0 ≤ right ∧
      nested leaf join (nestingSide registered right) first rest = .ok node := by
    intro node
    rw [run_ok_iff ends rfl]
    simp only [linked.expression_gives_nested typed firstTyped strong linking]
    -- The chain uses its tokens up, also where it need not.
    exact ⟨fun ⟨_, read, _⟩ => read.1, fun read => ⟨[], ⟨read, rfl⟩, fun _ => rfl⟩⟩
  refine ⟨registered, strong, given, read, ?_⟩
  -- At its own strength the rule has the right minimum on the side of its associativity.
  rintro rfl node
  obtain ⟨positive, side⟩ := nestingSide_own associativity strong
  rw [read, side, and_iff_right positive]

/-- A leaf, and an operator that nests to the left, with the strength it is registered at. -/
def leftSum (given : Datum) : List (Registration OperatorTree) := [
    .leaf (.text "n") "n" fun token => .ok (.leaf token),
    .tail (.text "+")
      (.tail (.binary "+" (fun token left right => .ok (.between left token right)) 1 .left))
      given]

/-- At its own strength the operator nests to the left. -/
theorem leftSum_nests_to_the_left :
    let leaf : Token := ⟨.text "n", none⟩
    let sign : Token := ⟨.text "+", none⟩
    let rest := [(sign, leaf), (sign, leaf)]
    Registration.lastGranted (leftSum .null) (.head, .text "n") =
        some (.head (.text "n") (.leaf "n" fun token => .ok (.leaf token))) ∧
      (∀ link ∈ rest, link.1.type = .text "+" ∧ link.2.type = .text "n") ∧
      ((({} : Grammar OperatorTree).extend (leftSum .null)).run none
        (.ofTokens (leaf :: links rest)) true).1 =
          .ok (.between (.between (.leaf leaf) sign (.leaf leaf)) sign (.leaf leaf)) := by
  intro leaf sign rest
  have starts : Registration.lastGranted (leftSum .null) (.head, .text "n") =
      some (.head (.text "n") (.leaf "n" fun token => .ok (.leaf token))) := rfl
  have typed : ∀ link ∈ rest, link.1.type = .text "+" ∧ link.2.type = .text "n" := by
    simp [rest, leaf, sign]
  obtain ⟨registered, -, given, -, honoured⟩ :=
    chains_nest_by_registered_and_right_strength (leftSum .null) (.tail .null) (.text "n")
      (.text "+") "n" "+" (fun token => .ok (.leaf token))
      (fun token left right => .ok (.between left token right)) 1 .left _ leaf rest true rfl rfl
      starts (by simp [rest]) rfl typed
  -- No strength is given, so the rule is registered at its own.
  have same : registered = 1 := by
    rcases given with ⟨-, same⟩ | given
    · exact same
    · cases given
  exact ⟨starts, typed, (honoured same _).2 rfl⟩

/-- Registered at a greater strength, the same operator nests to the right. -/
theorem raised_leftSum_nests_to_the_right :
    let leaf : Token := ⟨.text "n", none⟩
    let sign : Token := ⟨.text "+", none⟩
    let outcome := ((({} : Grammar OperatorTree).extend (leftSum (.int 5))).run none
      (.ofTokens [leaf, sign, leaf, sign, leaf]) true).1
    (∀ request ∈ leftSum (.int 5), ∃ entry, request.entry = .ok entry) ∧
      outcome = .ok (.between (.leaf leaf) sign (.between (.leaf leaf) sign (.leaf leaf))) ∧
      outcome ≠ .ok (.between (.between (.leaf leaf) sign (.leaf leaf)) sign (.leaf leaf)) := by
  intro leaf sign outcome
  have nested : ((({} : Grammar OperatorTree).extend (leftSum (.int 5))).run none
      (.ofTokens [leaf, sign, leaf, sign, leaf]) true).1 =
        .ok (.between (.leaf leaf) sign (.between (.leaf leaf) sign (.leaf leaf))) := by
    cbv
  refine ⟨?_, nested, ?_⟩
  · simp only [leftSum, List.forall_mem_cons]
    exact ⟨⟨_, rfl⟩, ⟨_, rfl⟩, by simp⟩
  · -- The two trees differ in what stands to the left of the root.
    simp only [outcome, nested]
    simp

end Grammar

end Climb
