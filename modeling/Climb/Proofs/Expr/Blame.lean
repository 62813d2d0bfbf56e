import Climb.Proofs.Expr.Rounds
import Climb.Proofs.Expr.Rules
import Climb.Proofs.Grammar.Promptness

/-! The language refuses a token as soon as it is met, and what comes after makes no difference. -/

namespace Climb

/-- A token that can be refused for its place only: it assigns nothing, and a number is readable. -/
structure Token.IsOrdinary (token : Token) : Prop where
  assigns : token.type ≠ .kind .assign
  readable : token.type = .kind .number → ∃ value, readNumber token.text = .ok value

namespace Expr

open Climb.Parser

variable {operand : Int → Parser Expr Expr} {bound depth : Nat} {token : Token}
  {tokens : List Token}

/-- Operands of any strength that rules ask for are read promptly from every end of a list. -/
def PromptOperands (operand : Int → Parser Expr Expr) (tokens : List Token) : Prop :=
  ∀ strength, 0 ≤ strength → ∀ list, list <:+ tokens → Prompt (operand strength) list

/-- What holds for the operands of a list holds for those of its ends. -/
theorem PromptOperands.suffix {list : List Token} (operands : PromptOperands operand tokens)
    (ends : list <:+ tokens) : PromptOperands operand list :=
  fun strength positive shorter further =>
    operands strength positive shorter (further.trans ends)

section

variable (steady : ∀ strength, Steady (operand strength))

include steady

/-- An operand is read and built into a node promptly, if building cannot fail. -/
theorem prompt_built {build : Expr → Except Error Expr}
    (succeeds : ∀ right, ∃ expr, build right = .ok expr) (strength : Int)
    (operands : Prompt (operand strength) tokens) :
    Prompt (operand strength >>= fun right => built (build right)) tokens := by
  -- Building takes no token and has a value.
  refine Prompt.bind (steady strength) (fun _ => (still_built _).steady) operands
    fun right middle _ => ?_
  obtain ⟨expr, built⟩ := succeeds right
  rw [built]
  exact (still_built _).prompt middle

/-- A token that starts an expression does so promptly. -/
theorem prompt_runHead {rule : HeadRule Expr} (ordinary : token.IsOrdinary)
    (found : grammar.head? token = some rule) (operands : PromptOperands operand tokens) :
    Prompt (runHead operand bound token rule) tokens := by
  rcases head?_cases found with ⟨typed, rfl⟩ | ⟨typed, rfl⟩ | ⟨typed, rfl⟩ | ⟨typed, rfl⟩
  · exact (still_built _).prompt tokens
  · -- A number that is readable is built without a failure.
    obtain ⟨value, read⟩ := ordinary.readable typed
    have built : buildNumber token = .ok (.number value) := by
      simp only [buildNumber, read, bind, Except.bind, pure, Except.pure]
    rw [runHead, built]
    exact (still_built _).prompt tokens
  · exact prompt_built steady (fun right => ⟨_, rfl⟩) 7
      (operands 7 (by decide) tokens List.suffix_rfl)
  · rw [runHead_group]
    refine Prompt.bind (steady 0)
      (fun inner => (steady_consume _).bind fun _ => (still_pure inner).steady)
      (operands 0 (by decide) tokens List.suffix_rfl) fun inner middle _ => ?_
    exact Prompt.bind (steady_consume _) (fun _ => (still_pure inner).steady)
      (prompt_consume _ middle) fun _ behind _ => (still_pure inner).prompt behind

/-- A conditional is read promptly. -/
theorem prompt_cond {left : Expr} {strength : Int} (operands : PromptOperands operand tokens) :
    Prompt (runTail operand bound token left (.form "cond" condSteps buildCond strength))
      tokens := by
  rw [runTail_cond]
  have last : ∀ chosen, Steady (operand 2 >>= fun other => pure (Expr.cond left chosen other)) :=
    fun chosen => (steady 2).bind fun other => (still_pure _).steady
  refine Prompt.bind (steady 0) (fun chosen => (steady_consume _).bind fun _ => last chosen)
    (operands 0 (by decide) tokens List.suffix_rfl) fun chosen middle one => ?_
  refine Prompt.bind (steady_consume _) (fun _ => last chosen) (prompt_consume _ middle)
    fun colon behind consumed => ?_
  -- The second arm is read from behind the colon, which is an end of the list.
  have ends : behind <:+ tokens :=
    (consumed.suffix (steady_consume _)).trans (one.suffix (steady 0))
  exact Prompt.bind (steady 2) (fun _ => (still_pure _).steady)
    (operands 2 (by decide) behind ends) fun other rest _ => (still_pure _).prompt rest

/-- A token that continues an expression does so promptly. -/
theorem prompt_runTail {rule : TailRule Expr} {left : Expr} (ordinary : token.IsOrdinary)
    (found : grammar.tail? token = some rule) (large : tokens.length < bound)
    (operands : PromptOperands operand tokens) :
    Prompt (runTail operand bound token left rule) tokens := by
  -- All operators between operands read the right one and build, at strengths of zero or more.
  have bin : ∀ strength associativity, 0 ≤ rightStrength strength associativity →
      Prompt (runTail operand bound token left (.binary "bin" buildBin strength associativity))
        tokens := fun strength associativity positive =>
    prompt_built steady (fun right => ⟨_, rfl⟩) _
      (operands _ positive tokens List.suffix_rfl)
  rcases tail?_cases found with ⟨typed, rfl⟩ | ⟨typed, rfl⟩ | ⟨typed, rfl⟩ | ⟨typed, rfl⟩ |
    ⟨typed, rfl⟩ | ⟨typed, rfl⟩ | ⟨typed, rfl⟩ | ⟨typed, rfl⟩
  · exact bin 1 .right (by decide)
  · exact absurd typed ordinary.assigns
  · exact prompt_cond steady operands
  · exact bin 4 .left (by decide)
  · exact bin 5 .left (by decide)
  · exact bin 6 .right (by decide)
  · exact (still_built _).prompt tokens
  · rw [runTail_call]
    exact Prompt.bind (steady_items steady bound _ _) (fun _ => (still_pure _).steady)
      (prompt_items steady _ rfl large fun list ends => operands 0 (by decide) list ends)
      fun args rest _ => (still_pure _).prompt rest

/-- Continuing an expression as far as a minimum allows is prompt. -/
theorem prompt_climb {minimum : Int} (positive : 0 ≤ minimum) (bound : Nat) :
    ∀ (left : Expr) {tokens : List Token}, tokens.length < bound → tokens.length < depth →
      (∀ token ∈ tokens, token.IsOrdinary) → PromptOperands operand tokens →
        Prompt (grammar.climb none operand depth minimum bound left) tokens := by
  -- A token is taken in every round, so neither bound is ever reached.
  induction bound with
  | zero =>
    intro left tokens large
    omega
  | succ bound ih =>
    intro left tokens large deep ordinary operands
    have climbs : ∀ node, Steady (grammar.climb none operand depth minimum bound node) :=
      Grammar.steady_climb steady depth minimum bound
    have continues : ∀ token, Steady (grammar.continueBy none operand depth left
        (grammar.climb none operand depth minimum bound) token) :=
      Grammar.steady_continueBy steady climbs depth left
    rw [Grammar.climb_succ]
    refine Prompt.bind (steady_peek 0) (fun ahead => ?_) (prompt_peek tokens)
      fun ahead middle seen => ?_
    · split
      · exact (steady_consume none).bind continues
      · exact (still_pure left).steady
    · obtain ⟨rfl, rfl⟩ := gives_peek.1 seen
      split
      · rename_i strong
        refine Prompt.bind (steady_consume none) continues (prompt_take tokens)
          fun token behind consumed => ?_
        obtain rfl := gives_consume_any.1 consumed
        simp only [List.length_cons] at large deep
        have ends : behind <:+ token :: behind := List.suffix_cons token behind
        cases found : grammar.tail? token with
        | none =>
          -- A token that binds has a rule.
          have weak := (strengthOf_bounds token).2.2.2 found
          simp only [List.head?_cons] at strong
          omega
        | some rule =>
          simp only [Grammar.continueBy, found, interpret, pure_bind]
          refine Prompt.bind (steady_runTail steady depth token left rule) climbs
            (prompt_runTail steady (ordinary token List.mem_cons_self) found (by omega)
              (operands.suffix ends)) fun node rest read => ?_
          have suffix := read.suffix (steady_runTail steady depth token left rule)
          have shorter := suffix.length_le
          exact ih node (by omega) (by omega)
            (fun token member => ordinary token ((suffix.trans ends).mem member))
            (operands.suffix (suffix.trans ends))
      · exact (still_pure left).prompt tokens

end

/-- Reading an expression is prompt, if the depth is enough. -/
theorem prompt_expressionWithin (depth : Nat) : ∀ {minimum : Int}, 0 ≤ minimum →
    ∀ {tokens : List Token}, tokens.length < depth → (∀ token ∈ tokens, token.IsOrdinary) →
      Prompt (grammar.expressionWithin none depth minimum) tokens := by
  -- Operands are read one level down, from a list that is shorter by the first token.
  induction depth with
  | zero =>
    intro minimum positive tokens deep
    omega
  | succ depth ih =>
    intro minimum positive tokens deep ordinary
    have steady : ∀ strength, Steady (grammar.expressionWithin none depth strength) :=
      Grammar.steady_expressionWithin depth
    have climbs : ∀ node, Steady (grammar.climb none (grammar.expressionWithin none depth) depth
        minimum depth node) := Grammar.steady_climb steady depth minimum depth
    have starts : ∀ token, Steady (grammar.startBy none (grammar.expressionWithin none depth) depth
        (grammar.climb none (grammar.expressionWithin none depth) depth minimum depth) token) :=
      Grammar.steady_startBy steady climbs depth
    rw [Grammar.expressionWithin_succ]
    cases tokens with
    | nil =>
      refine Prompt.bind (steady_consume none) starts (prompt_take []) fun token behind taken => ?_
      cases gives_consume_any.1 taken
    | cons token behind =>
      simp only [List.length_cons] at deep
      have ends : behind <:+ token :: behind := List.suffix_cons token behind
      cases found : grammar.head? token with
      | none =>
        -- A token that starts nothing is refused by itself.
        have refuses : Still (grammar.startBy none (grammar.expressionWithin none depth) depth
            (grammar.climb none (grammar.expressionWithin none depth) depth minimum depth) token)
            (.error (.parse (.noHeadRule token))) := by
          simp only [Grammar.startBy, found]
          exact still_throw _
        exact prompt_refuse starts (.noHeadRule token) refuses
      | some rule =>
        have operands : PromptOperands (grammar.expressionWithin none depth) behind := by
          intro strength positive list shorter
          have length := shorter.length_le
          exact ih positive (by omega)
            fun token member => ordinary token ((shorter.trans ends).mem member)
        refine Prompt.bind (steady_consume none) starts (prompt_take _)
          fun taken rest consumed => ?_
        cases gives_consume_any.1 consumed
        simp only [Grammar.startBy, found, interpret, pure_bind]
        refine Prompt.bind (steady_runHead steady depth token rule) climbs
          (prompt_runHead steady (ordinary token List.mem_cons_self) found operands)
          fun node rest read => ?_
        have suffix := read.suffix (steady_runHead steady depth token rule)
        have shorter := suffix.length_le
        exact prompt_climb steady positive depth node (by omega) (by omega)
          (fun token member => ordinary token ((suffix.trans ends).mem member))
          (operands.suffix suffix)

/-- Reading an expression is prompt. -/
theorem prompt_expression {minimum : Int} (positive : 0 ≤ minimum)
    (ordinary : ∀ token ∈ tokens, token.IsOrdinary) :
    Prompt (grammar.expression none minimum) tokens := by
  -- On a list of any size, an expression is read as with a depth beyond that size.
  refine prompt_of_agree (fun size => grammar.expressionWithin none (size + 1) minimum)
    (fun size _ => Grammar.agree_expression minimum (Nat.lt_succ_self size)) fun size small => ?_
  exact prompt_expressionWithin (size + 1) positive (Nat.lt_succ_of_le small) ordinary

end Expr

end Climb
