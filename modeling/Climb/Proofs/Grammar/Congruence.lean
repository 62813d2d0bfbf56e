import Climb.Proofs.Grammar.Cursor

/-! What is passed on from elementary actions is passed on to the reading of expressions. -/

namespace Climb

variable {N : Type}

/-- A step that looks ahead in some ways only. -/
def Step.Looks (looks : Int → Prop) : Step → Prop
  | .peek distance => looks distance
  | _ => True

/-- A rule that looks ahead in some ways only, and fails in some ways only with a token. -/
def HeadRule.KeepsTo (looks : Int → Prop) (failures : Error → Prop) (token : Token) :
    HeadRule N → Prop
  | leaf _ build => ∀ failure, build token = .error failure → failures failure
  | operator _ build _ => ∀ right failure, build token right = .error failure → failures failure
  | form _ pattern build => (∀ step ∈ pattern, step.Looks looks) ∧
    ∀ parts failure, build token parts = .error failure → failures failure

/-- A rule that looks ahead in some ways only, and fails in some ways only with a token. -/
def TailRule.KeepsTo (looks : Int → Prop) (failures : Error → Prop) (token : Token) :
    TailRule N → Prop
  | operator _ build _ | bare _ build _ =>
    ∀ left failure, build token left = .error failure → failures failure
  | binary _ build _ _ =>
    ∀ left right failure, build token left right = .error failure → failures failure
  | form _ pattern build _ => (∀ step ∈ pattern, step.Looks looks) ∧
    ∀ parts failure, build token parts = .error failure → failures failure

/-- A step may look anywhere. -/
theorem Step.looks_any (step : Step) : step.Looks fun _ => True := by
  cases step <;> trivial

/-- A rule keeps to all looks and all failures. -/
theorem HeadRule.keepsTo_any (rule : HeadRule N) (token : Token) :
    rule.KeepsTo (fun _ => True) (fun _ => True) token := by
  cases rule <;> simp [KeepsTo, Step.looks_any]

/-- A rule keeps to all looks and all failures. -/
theorem TailRule.keepsTo_any (rule : TailRule N) (token : Token) :
    rule.KeepsTo (fun _ => True) (fun _ => True) token := by
  cases rule <;> simp [KeepsTo, Step.looks_any]

namespace Parser

variable {α β : Type}

/--
A relation between actions that is passed on from elementary actions to all others: those that look
ahead in some ways only, and that fail in some ways or by what becomes of looking and taking. What
is done with a token that is taken matters for some tokens only.
-/
structure Congruence (looks : Int → Prop) (tokens : Token → Prop) (failures : Error → Prop)
    (related : ∀ {α : Type}, Parser N α → Parser N α → Prop) : Prop where
  faults : ∀ fault, fault ≠ .tooDeep → failures (.parse fault)
  still : ∀ {α : Type} {action : Parser N α} {outcome : Except Error α}, Still action outcome →
    (∀ failure, outcome = .error failure → failures failure) → related action action
  take : ∀ {α : Type} {expected : Option TokenType} {next further : Token → Parser N α},
    (∀ token, tokens token → related (next token) (further token)) →
      related (consume expected >>= next) (consume expected >>= further)
  accept : ∀ type, related (accept type) (accept type)
  near : looks 0
  peek : ∀ distance, looks distance → related (peek distance) (peek distance)
  bind : ∀ {α β : Type} {one other : Parser N α} {next further : α → Parser N β},
    related one other → (∀ value, related (next value) (further value)) →
      related (one >>= next) (other >>= further)

namespace Congruence

/-- What the rules of a grammar read with is in a relation: the operands, and the loops of a form,
which may have two bounds. -/
structure Reads (related : ∀ {α : Type}, Parser N α → Parser N α → Prop)
    (operand other : Int → Parser N N) (bound limit : Nat) : Prop where
  operands : ∀ strength, related (operand strength) (other strength)
  counts : ∀ type, related (acceptAll type bound 0) (acceptAll type limit 0)
  moreItems : ∀ separator nodes, related (moreItems operand separator bound nodes)
    (moreItems other separator limit nodes)

variable {looks : Int → Prop} {tokens : Token → Prop} {failures : Error → Prop}
  {related : ∀ {α : Type}, Parser N α → Parser N α → Prop}
  {operand other : Int → Parser N N} {bound limit : Nat}

section

variable (congruence : Congruence looks tokens failures related)

include congruence

/-- Returning a value is related to itself. -/
theorem returns (value : α) : related (pure value) (pure value) :=
  congruence.still (still_pure value) (by simp)

/-- Giving up on a token is related to itself. -/
theorem givesUp {fault : ParseFault} (shallow : fault ≠ .tooDeep) :
    related (throw (.parse fault) : Parser N α) (throw (.parse fault)) := by
  -- A fault is an action that leaves the tokens alone, and one of the failures that are allowed.
  refine congruence.still (still_throw _) ?_
  rintro _ ⟨⟩
  exact congruence.faults fault shallow

/-- Asking for the end is related to itself. -/
theorem atEnd : related atEnd atEnd := by
  -- The end is found by a look at the next token.
  rw [atEnd_eq]
  exact congruence.bind (congruence.peek 0 congruence.near) fun _ => congruence.returns _

/-- Consuming a token is related to itself. -/
theorem consume (expected : Option TokenType) : related (consume expected) (consume expected) := by
  -- Taking is related together with what follows it, which is nothing here.
  have taken : related (Parser.consume expected >>= pure) (Parser.consume expected >>= pure) :=
    congruence.take fun token _ => congruence.returns token
  rwa [bind_pure] at taken

section

variable (deep : failures (.parse .tooDeep))

include deep

/-- Running out of a bound is related to itself. -/
theorem tooDeep : related (throw (.parse .tooDeep) : Parser N α) (throw (.parse .tooDeep)) := by
  -- This fault is set apart from the others, as some relations are about the depth.
  refine congruence.still (still_throw _) ?_
  rintro _ ⟨⟩
  exact deep

/-- Counting tokens of a type is related to itself. -/
theorem acceptAll (type : TokenType) (bound : Nat) :
    ∀ count, related (acceptAll type bound count) (acceptAll type bound count) := by
  -- The bound is the recursion; running out of it is a failure like any other.
  induction bound with
  | zero => exact fun _ => congruence.tooDeep deep
  | succ bound ih =>
    intro count
    refine congruence.bind (congruence.accept type) fun accepted => ?_
    cases accepted with
    | true => exact ih (count + 1)
    | false => exact congruence.returns count

/-- Reading further items is related if reading one is. -/
theorem moreItems (operands : ∀ strength, related (operand strength) (other strength))
    (separator : TokenType) (bound : Nat) :
    ∀ nodes, related (moreItems operand separator bound nodes)
      (moreItems other separator bound nodes) := by
  -- As for counting: one round, and then the rest of them.
  induction bound with
  | zero => exact fun _ => congruence.tooDeep deep
  | succ bound ih =>
    intro nodes
    refine congruence.bind (congruence.accept separator) fun accepted => ?_
    cases accepted with
    | true => exact congruence.bind (operands 0) fun node => ih (nodes ++ [node])
    | false => exact congruence.returns nodes

/-- Where both loops have one bound, it is enough that operands are related. -/
theorem reads (operands : ∀ strength, related (operand strength) (other strength)) (bound : Nat) :
    Reads related operand other bound bound :=
  ⟨operands, fun type => congruence.acceptAll deep type bound 0,
    fun separator nodes => congruence.moreItems deep operands separator bound nodes⟩

end

variable (reads : Reads related operand other bound limit)

include reads

/-- Reading items up to a closing token is related. -/
theorem items (separator close : TokenType) :
    related (items operand bound separator close) (items other limit separator close) := by
  refine congruence.bind (congruence.accept close) fun accepted => ?_
  cases accepted with
  | true => exact congruence.returns []
  | false =>
    refine congruence.bind (reads.operands 0) fun node => ?_
    refine congruence.bind (reads.moreItems separator [node]) fun nodes => ?_
    -- The closing token is checked and its text thrown away.
    rw [discard_eq]
    exact congruence.bind (congruence.take fun _ _ => congruence.returns ()) fun _ =>
      congruence.returns nodes

/-- A step of a form is related. -/
theorem step (token : Token) (left : Option N) {pattern : Step} (keeps : pattern.Looks looks) :
    related (step operand bound token left pattern) (step other limit token left pattern) := by
  -- Each step is one action, and then its finding is returned.
  have found {α : Type} {one other : Parser N α} (start : related one other)
      (finding : α → Part N) :
      related (do return [finding (← one)]) (do return [finding (← other)]) :=
    congruence.bind start fun _ => congruence.returns _
  cases pattern with
  | left => exact congruence.returns _
  | operand strength => exact found (reads.operands strength) .node
  | consume expected => exact found (congruence.consume expected) .token
  | accept type => exact found (congruence.accept type) .flag
  | peek distance => exact found (congruence.peek distance keeps) .glimpse
  | atEnd => exact found congruence.atEnd .flag
  | items separator close => exact found (congruence.items reads separator close) .nodes
  | repeated type => exact found (reads.counts type) .count
  | fail message => exact congruence.givesUp (by simp)

/-- The steps of a form are related. -/
theorem steps (token : Token) (left : Option N) {pattern : List Step}
    (keeps : ∀ step ∈ pattern, step.Looks looks) :
    related (steps operand bound token left pattern) (steps other limit token left pattern) := by
  -- Along the pattern: a step, the others, and then all their findings in one list.
  induction pattern with
  | nil => exact congruence.returns []
  | cons first rest ih =>
    obtain ⟨keepsFirst, keepsRest⟩ := List.forall_mem_cons.1 keeps
    exact congruence.bind (congruence.step reads token left keepsFirst) fun _ =>
      congruence.bind (ih keepsRest) fun _ => congruence.returns _

/-- Starting an expression by a rule is related. -/
theorem runHead {token : Token} {rule : HeadRule N} (keeps : rule.KeepsTo looks failures token) :
    related (runHead operand bound token rule) (runHead other limit token rule) := by
  -- By the kind of the rule: what is read before it builds its node, if anything is.
  cases rule with
  | leaf label build => exact congruence.still (still_built _) keeps
  | operator label build strength =>
    exact congruence.bind (reads.operands strength) fun right =>
      congruence.still (still_built _) (keeps right)
  | form label pattern build =>
    exact congruence.bind (congruence.steps reads token none keeps.1) fun parts =>
      congruence.still (still_built _) (keeps.2 parts)

/-- Continuing an expression by a rule is related. -/
theorem runTail {token : Token} (left : N) {rule : TailRule N}
    (keeps : rule.KeepsTo looks failures token) :
    related (runTail operand bound token left rule) (runTail other limit token left rule) := by
  -- As for the start of an expression, but with a node on the left.
  cases rule with
  | operator label build strength => exact congruence.still (still_built _) (keeps left)
  | bare label build own => exact congruence.still (still_built _) (keeps left)
  | binary label build strength associativity =>
    exact congruence.bind (reads.operands _) fun right =>
      congruence.still (still_built _) (keeps left right)
  | form label pattern build strength =>
    exact congruence.bind (congruence.steps reads token (some left) keeps.1) fun parts =>
      congruence.still (still_built _) (keeps.2 parts)

end

end Congruence

/-- Seeing only the list is passed on from elementary actions to all others. -/
theorem congruence_steady :
    Congruence (fun _ => True) (fun _ => True) (fun _ => True)
      fun {α} (one : Parser N α) _ => Steady one where
  faults _ _ := trivial
  still still _ := still.steady
  take rest := (steady_consume _).bind fun token => rest token trivial
  accept := steady_accept
  near := trivial
  peek distance _ := steady_peek distance
  bind := Steady.bind

variable {operand : Int → Parser N N}

/-- Counting tokens of a type sees only the list. -/
theorem steady_acceptAll (type : TokenType) (bound : Nat) (count : Nat) :
    Steady (acceptAll type bound count : Parser N Nat) :=
  congruence_steady.acceptAll trivial type bound count

section

variable (steady : ∀ strength, Steady (operand strength))

include steady

/-- What rules read with sees only the list, if operands do. -/
theorem steady_reads (bound : Nat) :
    Congruence.Reads (fun {α} (one : Parser N α) _ => Steady one) operand operand bound bound :=
  congruence_steady.reads trivial steady bound

/-- Reading further items sees only the list, if reading one does. -/
theorem steady_moreItems (separator : TokenType) (bound : Nat) (nodes : List N) :
    Steady (moreItems operand separator bound nodes) :=
  (steady_reads steady bound).moreItems separator nodes

/-- Reading items up to a closing token sees only the list, if reading one does. -/
theorem steady_items (bound : Nat) (separator close : TokenType) :
    Steady (items operand bound separator close) :=
  congruence_steady.items (steady_reads steady bound) separator close

/-- A step of a form sees only the list, if reading an operand does. -/
theorem steady_step (bound : Nat) (token : Token) (left : Option N) (pattern : Step) :
    Steady (step operand bound token left pattern) :=
  congruence_steady.step (steady_reads steady bound) token left pattern.looks_any

/-- The steps of a form see only the list, if reading an operand does. -/
theorem steady_steps (bound : Nat) (token : Token) (left : Option N) (pattern : List Step) :
    Steady (steps operand bound token left pattern) :=
  congruence_steady.steps (steady_reads steady bound) token left fun step _ => step.looks_any

/-- Starting an expression by a rule sees only the list, if reading an operand does. -/
theorem steady_runHead (bound : Nat) (token : Token) (rule : HeadRule N) :
    Steady (runHead operand bound token rule) :=
  congruence_steady.runHead (steady_reads steady bound) (rule.keepsTo_any token)

/-- Continuing an expression by a rule sees only the list, if reading an operand does. -/
theorem steady_runTail (bound : Nat) (token : Token) (left : N) (rule : TailRule N) :
    Steady (runTail operand bound token left rule) :=
  congruence_steady.runTail (steady_reads steady bound) left (rule.keepsTo_any token)

end

end Parser

namespace Grammar

variable {grammar : Grammar N} {interpreter : Option (Interpreter N)}
  {operand : Int → Parser N N}

/-- Starts an expression with a token that has been consumed, and goes on with its node. -/
def startBy (grammar : Grammar N) (interpreter : Option (Interpreter N))
    (operand : Int → Parser N N) (depth : Nat) (next : N → Parser N N) (token : Token) :
    Parser N N :=
  match grammar.head? token with
  | none => throw (.parse (.noHeadRule token))
  | some rule => do
    let node ← Parser.runHead operand depth token rule
    let node ← Parser.interpret interpreter node
    next node

/-- Continues an expression with a token that has been consumed, and goes on with its node. -/
def continueBy (grammar : Grammar N) (interpreter : Option (Interpreter N))
    (operand : Int → Parser N N) (depth : Nat) (left : N) (next : N → Parser N N) (token : Token) :
    Parser N N :=
  match grammar.tail? token with
  | none => throw (.parse (.noTailRule token))
  | some rule => do
    let node ← Parser.runTail operand depth token left rule
    let node ← Parser.interpret interpreter node
    next node

/-- One round of climbing: the next token continues the expression, or the expression ends. -/
theorem climb_succ (depth : Nat) (minimum : Int) (bound : Nat) (left : N) :
    grammar.climb interpreter operand depth minimum (bound + 1) left = (do
      let ahead ← Parser.peek 0
      if minimum < grammar.strengthOf ahead then
        let token ← Parser.consume none
        grammar.continueBy interpreter operand depth left
          (grammar.climb interpreter operand depth minimum bound) token
      else return left) := rfl

/-- An expression starts with its first token and is then continued by climbing. -/
theorem expressionWithin_succ (depth : Nat) (minimum : Int) :
    grammar.expressionWithin interpreter (depth + 1) minimum = (do
      let token ← Parser.consume none
      let operand := grammar.expressionWithin interpreter depth
      grammar.startBy interpreter operand depth
        (grammar.climb interpreter operand depth minimum depth) token) := rfl

/-- What is done about the token ahead where none may be left. -/
def refuse (ahead : Option Token) : Parser N Unit :=
  match ahead with
  | none => return ()
  | some token => throw (.parse (.excessToken token))

/-- Excess tokens are refused after a look ahead. -/
theorem refuseExcess_eq : (refuseExcess : Parser N Unit) = Parser.peek 0 >>= refuse := rfl

/-- An input that is to be used up is an expression, and then nothing. -/
theorem inputWithin_whole (depth : Nat) :
    grammar.inputWithin interpreter depth true =
      grammar.expressionWithin interpreter depth 0 >>= fun node =>
        refuseExcess >>= fun _ => pure node := rfl

/--
A grammar whose rules, on some tokens, look ahead in some ways only and fail in some ways only, as
an interpreter does.
-/
structure KeepsTo (grammar : Grammar N) (interpreter : Option (Interpreter N))
    (looks : Int → Prop) (tokens : Token → Prop) (failures : Error → Prop) : Prop where
  heads : ∀ {token rule}, tokens token → grammar.head? token = some rule →
    rule.KeepsTo looks failures token
  tails : ∀ {token rule}, tokens token → grammar.tail? token = some rule →
    rule.KeepsTo looks failures token
  interprets : ∀ {node failure}, Parser.interpreted interpreter node = .error failure →
    failures failure

/-- A grammar keeps to all looks and all failures. -/
theorem keepsTo_any (grammar : Grammar N) (interpreter : Option (Interpreter N))
    {tokens : Token → Prop} :
    grammar.KeepsTo interpreter (fun _ => True) tokens fun _ => True where
  heads {token rule} _ _ := rule.keepsTo_any token
  tails {token rule} _ _ := rule.keepsTo_any token
  interprets _ := trivial

section

variable {looks : Int → Prop} {tokens : Token → Prop} {failures : Error → Prop}
  {related : ∀ {α : Type}, Parser N α → Parser N α → Prop} {other : Int → Parser N N}
  (congruence : Parser.Congruence looks tokens failures related)

include congruence

/-- Whatever is done about the token ahead is related to itself. -/
theorem related_refuse (ahead : Option Token) :
    related (refuse ahead : Parser N Unit) (refuse ahead) := by
  -- Nothing is left to be refused, or the token that is left is given up on.
  cases ahead with
  | none => exact congruence.returns ()
  | some token => exact congruence.givesUp (by simp)

/-- Reading a whole input is related, if reading its expression is. -/
theorem related_inputWithin (further : Grammar N) {depth : Nat} (nesting : Nat)
    (start : related (grammar.expressionWithin interpreter depth 0)
      (further.expressionWithin interpreter nesting 0)) (exhaust : Bool) :
    related (grammar.inputWithin interpreter depth exhaust)
      (further.inputWithin interpreter nesting exhaust) := by
  refine congruence.bind start fun node => ?_
  cases exhaust with
  | false => exact congruence.returns node
  | true =>
    -- Tokens after the expression are refused without a look at the grammar.
    have refused := congruence.bind (congruence.peek 0 congruence.near) (related_refuse congruence)
    exact congruence.bind refused fun _ => congruence.returns node

variable (keeps : grammar.KeepsTo interpreter looks tokens failures)

include keeps

/-- Interpreting a node is related to itself. -/
theorem related_interpret (node : N) :
    related (Parser.interpret interpreter node) (Parser.interpret interpreter node) :=
  congruence.still (Parser.still_interpret interpreter node) fun _ => keeps.interprets

section

variable {further : Grammar N} {depth nesting : Nat} (next after : N → Parser N N) {token : Token}
  (reads : Parser.Congruence.Reads related operand other depth nesting)
  (rest : ∀ node, related (next node) (after node)) (known : tokens token)

include reads rest known

/-- Starting an expression by one rule is related, if what it reads with and the rest of it are. -/
theorem related_startBy (same : grammar.head? token = further.head? token) :
    related (grammar.startBy interpreter operand depth next token)
      (further.startBy interpreter other nesting after token) := by
  unfold startBy
  -- Both grammars have the same rule for this token, or none.
  rw [← same]
  split
  · exact congruence.givesUp (by simp)
  · rename_i rule found
    exact congruence.bind (congruence.runHead reads (keeps.heads known found)) fun node =>
      congruence.bind (related_interpret congruence keeps node) rest

/-- Continuing an expression by one rule is related, if what it reads with and the rest of it
are. -/
theorem related_continueBy (same : grammar.tail? token = further.tail? token) (left : N) :
    related (grammar.continueBy interpreter operand depth left next token)
      (further.continueBy interpreter other nesting left after token) := by
  unfold continueBy
  -- As for a start: one rule for both, or none.
  rw [← same]
  split
  · exact congruence.givesUp (by simp)
  · rename_i rule found
    exact congruence.bind (congruence.runTail reads left (keeps.tails known found)) fun node =>
      congruence.bind (related_interpret congruence keeps node) rest

end

variable (deep : failures (.parse .tooDeep))

include deep

/-- Climbing is related to itself, if reading an operand is. -/
theorem related_climb (operands : ∀ strength, related (operand strength) (operand strength))
    (depth : Nat) (minimum : Int) (bound : Nat) :
    ∀ left, related (grammar.climb interpreter operand depth minimum bound left)
      (grammar.climb interpreter operand depth minimum bound left) := by
  -- A round looks ahead, and then it is over or is followed by another one.
  induction bound with
  | zero => exact fun _ => congruence.tooDeep deep
  | succ bound ih =>
    intro left
    rw [climb_succ]
    refine congruence.bind (congruence.peek 0 congruence.near) fun ahead => ?_
    split
    · exact congruence.take fun token known =>
        related_continueBy congruence keeps _ _ (congruence.reads deep operands depth) ih known rfl
          left
    · exact congruence.returns left

/-- Reading an expression is related to itself. -/
theorem related_expressionWithin (depth : Nat) : ∀ minimum,
    related (grammar.expressionWithin interpreter depth minimum)
      (grammar.expressionWithin interpreter depth minimum) := by
  -- Operands are read one level down.
  induction depth with
  | zero => exact fun _ => congruence.tooDeep deep
  | succ depth ih =>
    intro minimum
    rw [expressionWithin_succ]
    exact congruence.take fun token known =>
      related_startBy congruence keeps _ _ (congruence.reads deep ih depth)
        (related_climb congruence keeps deep ih depth minimum depth) known rfl

end

/-- Starting an expression sees only the list, if operands and the rest of it do. -/
theorem steady_startBy {next : N → Parser N N} (steady : ∀ strength, (operand strength).Steady)
    (after : ∀ node, (next node).Steady) (depth : Nat) (token : Token) :
    (grammar.startBy interpreter operand depth next token).Steady :=
  related_startBy Parser.congruence_steady (grammar.keepsTo_any interpreter) next next
    (Parser.steady_reads steady depth) after trivial rfl

/-- Continuing an expression sees only the list, if operands and the rest of it do. -/
theorem steady_continueBy {next : N → Parser N N} (steady : ∀ strength, (operand strength).Steady)
    (after : ∀ node, (next node).Steady) (depth : Nat) (left : N) (token : Token) :
    (grammar.continueBy interpreter operand depth left next token).Steady :=
  related_continueBy Parser.congruence_steady (grammar.keepsTo_any interpreter) next next
    (Parser.steady_reads steady depth) after trivial rfl left

/-- Climbing sees only the list, if reading an operand does. -/
theorem steady_climb (steady : ∀ strength, (operand strength).Steady) (depth : Nat)
    (minimum : Int) (bound : Nat) (left : N) :
    (grammar.climb interpreter operand depth minimum bound left).Steady :=
  related_climb Parser.congruence_steady (grammar.keepsTo_any interpreter) trivial steady
    depth minimum bound left

/-- Reading an expression sees only the list of the tokens that are left. -/
theorem steady_expressionWithin (depth : Nat) (minimum : Int) :
    (grammar.expressionWithin interpreter depth minimum).Steady :=
  related_expressionWithin Parser.congruence_steady (grammar.keepsTo_any interpreter) trivial
    depth minimum

end Grammar

end Climb
