import Climb.Proofs.Grammar.Reading

/-! What the steps of a form read, one after the other. -/

namespace Climb.Parser

variable {N : Type} {operand : Int → Parser N N} {bound : Nat} {token : Token} {left : Option N}
  {tokens rest : List Token} {parts : List (Part N)}

/-- A form without steps reads nothing. -/
theorem steps_gives_nil :
    (steps operand bound token left []).Gives tokens parts rest ↔ parts = [] ∧ tokens = rest := by
  rw [steps, (still_pure _).gives_iff, Except.ok.injEq, eq_comm]

/-- A form reads by its first step and then by the others. -/
theorem steps_gives_cons (steady : ∀ strength, Steady (operand strength)) {first : Step}
    {pattern : List Step} :
    (steps operand bound token left (first :: pattern)).Gives tokens parts rest ↔
      ∃ found middle more, (step operand bound token left first).Gives tokens found middle ∧
        (steps operand bound token left pattern).Gives middle more rest ∧
        parts = found ++ more := by
  rw [steps, gives_bind (steady_step steady bound token left first) fun _ =>
    (steady_steps steady bound token left pattern).bind fun _ => (still_pure _).steady]
  simp only [gives_bind_pure (steady_steps steady bound token left pattern), exists_and_left]

/-- The step that finds the left operand reads nothing. -/
theorem step_gives_left :
    (step operand bound token left .left).Gives tokens parts rest ↔
      parts = left.toList.map .node ∧ tokens = rest := by
  rw [step, (still_pure _).gives_iff, Except.ok.injEq, eq_comm]

/-- The step that finds an operand reads one. -/
theorem step_gives_operand (steady : ∀ strength, Steady (operand strength)) {strength : Int} :
    (step operand bound token left (.operand strength)).Gives tokens parts rest ↔
      ∃ node, (operand strength).Gives tokens node rest ∧ parts = [.node node] :=
  gives_bind_pure (steady strength)

/-- The step that finds a token of a type reads one. -/
theorem step_gives_consume {type : TokenType} :
    (step operand bound token left (.consume (some type))).Gives tokens parts rest ↔
      ∃ consumed, tokens = consumed :: rest ∧ consumed.type = type ∧
        parts = [.token consumed] := by
  rw [step, gives_bind_pure (steady_consume _)]
  simp only [gives_consume, and_assoc]

/-- The step that finds items reads them. -/
theorem step_gives_items (steady : ∀ strength, Steady (operand strength))
    {separator close : TokenType} :
    (step operand bound token left (.items separator close)).Gives tokens parts rest ↔
      ∃ nodes, (items operand bound separator close).Gives tokens nodes rest ∧
        parts = [.nodes nodes] :=
  gives_bind_pure (steady_items steady bound separator close)

/-- What follows an item: the closing token, or a separator with a further item and what follows. -/
inductive Further (reads : List Token → N → List Token → Prop) (separator close : TokenType) :
    List Token → List N → List Token → Prop
  | done {closing : Token} {rest : List Token} (closes : closing.type = close) :
    Further reads separator close (closing :: rest) [] rest
  | next {comma : Token} {tokens middle rest : List Token} {node : N} {nodes : List N}
      (separates : comma.type = separator) (read : reads tokens node middle)
      (further : Further reads separator close middle nodes rest) :
    Further reads separator close (comma :: tokens) (node :: nodes) rest

/-- What follows an item leaves less than there was, if reading an item does not leave more. -/
theorem Further.length {reads : List Token → N → List Token → Prop} {separator close : TokenType}
    {tokens rest : List Token} {nodes : List N}
    (further : Further reads separator close tokens nodes rest)
    (shorter : ∀ {tokens node rest}, reads tokens node rest → rest.length ≤ tokens.length) :
    rest.length < tokens.length := by
  induction further with
  | done closes => exact Nat.lt_succ_self _
  | next separates read further ih =>
    -- The separator goes before the item, so even an item of no tokens shortens the list.
    have := shorter read
    simp only [List.length_cons]
    omega

/-- One round of reading further items. -/
theorem moreItems_gives_succ (steady : ∀ strength, Steady (operand strength))
    {separator : TokenType} {nodes all : List N} :
    (moreItems operand separator (bound + 1) nodes).Gives tokens all rest ↔
      (all = nodes ∧ tokens = rest ∧ ∀ first ∈ tokens.head?, first.type ≠ separator) ∨
        ∃ comma others node middle, tokens = comma :: others ∧ comma.type = separator ∧
          (operand 0).Gives others node middle ∧
          (moreItems operand separator bound (nodes ++ [node])).Gives middle all rest := by
  -- Both branches are steady, so the round can be cut at the question for the separator.
  have after : ∀ accepted : Bool, Steady (if accepted = true then do
      let node ← operand 0
      moreItems operand separator bound (nodes ++ [node])
    else pure nodes : Parser N (List N)) := by
    intro accepted
    cases accepted with
    | true => exact (steady 0).bind fun node => steady_moreItems steady separator bound _
    | false => exact (still_pure nodes).steady
  rw [moreItems, gives_bind (steady_accept separator) after]
  constructor
  · rintro ⟨accepted, middle, taken, given⟩
    cases accepted with
    | true =>
      obtain ⟨comma, rfl, typed⟩ := gives_accept_true.1 taken
      obtain ⟨node, left, read, further⟩ :=
        (gives_bind (steady 0) fun node => steady_moreItems steady separator bound _).1 given
      exact .inr ⟨comma, middle, node, left, rfl, typed, read, further⟩
    | false =>
      obtain ⟨rfl, other⟩ := gives_accept_false.1 taken
      obtain ⟨same, rfl⟩ := (still_pure nodes).gives_iff.1 given
      exact .inl ⟨(Except.ok.inj same).symm, rfl, other⟩
  · rintro (⟨rfl, rfl, other⟩ | ⟨comma, others, node, middle, rfl, typed, read, further⟩)
    · exact ⟨false, tokens, gives_accept_false.2 ⟨rfl, other⟩,
        (still_pure all).gives_iff.2 ⟨rfl, rfl⟩⟩
    · exact ⟨true, others, gives_accept_true.2 ⟨comma, rfl, typed⟩,
        (gives_bind (steady 0) fun node => steady_moreItems steady separator bound _).2
          ⟨node, middle, read, further⟩⟩

variable {separator close : TokenType} {nodes all : List N}

/-- Reading further items up to a closing token finds what follows an item. -/
theorem further_of_moreItems (steady : ∀ strength, Steady (operand strength)) {closing : Token}
    (closes : closing.type = close) : ∀ {bound : Nat} {tokens : List Token} {nodes : List N},
    (moreItems operand separator bound nodes).Gives tokens all (closing :: rest) →
      ∃ more, all = nodes ++ more ∧ Further (operand 0).Gives separator close tokens more rest := by
  intro bound
  -- The bound is the recursion of the loop; the nodes read so far stand before the new ones.
  induction bound with
  | zero =>
    intro tokens nodes given
    exact absurd ((still_throw _).gives_iff.1 given).1 (by simp)
  | succ bound ih =>
    intro tokens nodes given
    rcases (moreItems_gives_succ steady).1 given with
      ⟨rfl, rfl, -⟩ | ⟨comma, others, node, middle, rfl, typed, read, further⟩
    · exact ⟨[], by simp, .done closes⟩
    · obtain ⟨more, rfl, rest⟩ := ih further
      exact ⟨node :: more, by simp, .next typed read rest⟩

/-- What follows an item is read up to the closing token, if that is no separator. -/
theorem moreItems_of_further (steady : ∀ strength, Steady (operand strength))
    (apart : close ≠ separator) {tokens rest : List Token} {more : List N}
    (further : Further (operand 0).Gives separator close tokens more rest) :
    ∀ (bound : Nat) (nodes : List N), tokens.length < bound →
      ∃ closing, closing.type = close ∧
        (moreItems operand separator bound nodes).Gives tokens (nodes ++ more)
          (closing :: rest) := by
  -- The closing token is no separator, so the loop cannot run past it.
  induction further with
  | @done closing rest closes =>
    intro bound nodes large
    cases bound with
    | zero => omega
    | succ bound =>
      refine ⟨closing, closes, (moreItems_gives_succ steady).2 (.inl ⟨by simp, rfl, ?_⟩)⟩
      simpa [closes] using apart
  | @next comma tokens middle rest node more separates read further ih =>
    intro bound nodes large
    have shorter := read.length (steady 0)
    cases bound with
    | zero => omega
    | succ bound =>
      simp only [List.length_cons] at large
      obtain ⟨closing, closes, given⟩ := ih bound (nodes ++ [node]) (by omega)
      refine ⟨closing, closes, (moreItems_gives_succ steady).2
        (.inr ⟨comma, tokens, node, middle, rfl, separates, read, ?_⟩)⟩
      simpa using given

/-- The end of items: the closing token is consumed. -/
def closeItems (close : TokenType) (nodes : List N) : Parser N (List N) := do
  discard (consume close.expectation)
  return nodes

/-- Consuming the closing token sees only the list. -/
theorem steady_closeItems (close : TokenType) (nodes : List N) :
    Steady (closeItems close nodes) := by
  rw [closeItems, discard_eq]
  exact ((steady_consume _).bind fun _ => (still_pure ()).steady).bind
    fun _ => (still_pure nodes).steady

/-- The end of items is a token of the closing type. -/
theorem closeItems_gives (expects : close.expectation = some close) :
    (closeItems close nodes).Gives tokens all rest ↔
      nodes = all ∧ ∃ closing, tokens = closing :: rest ∧ closing.type = close := by
  -- The closing token is expected by its type, so one of another type would fail.
  rw [closeItems, discard_eq, expects,
    gives_bind ((steady_consume _).bind fun _ => (still_pure ()).steady)
      fun _ => (still_pure nodes).steady]
  simp only [gives_bind (steady_consume _) fun _ => (still_pure ()).steady, gives_consume,
    (still_pure _).gives_iff, Except.ok.injEq]
  constructor
  · rintro ⟨_, _, ⟨closing, _, ⟨rfl, closes⟩, -, rfl⟩, rfl, rfl⟩
    exact ⟨rfl, closing, rfl, closes⟩
  · rintro ⟨rfl, closing, rfl, closes⟩
    exact ⟨(), rest, ⟨closing, rest, ⟨rfl, closes⟩, trivial, rfl⟩, rfl, rfl⟩

/-- Items are none before a closing token, or one and what follows it. -/
theorem items_gives (steady : ∀ strength, Steady (operand strength)) (apart : close ≠ separator)
    (expects : close.expectation = some close) (large : tokens.length < bound) :
    (items operand bound separator close).Gives tokens nodes rest ↔
      (∃ closing, tokens = closing :: rest ∧ closing.type = close ∧ nodes = []) ∨
        ((∀ first ∈ tokens.head?, first.type ≠ close) ∧ ∃ node middle more,
          (operand 0).Gives tokens node middle ∧
          Further (operand 0).Gives separator close middle more rest ∧ nodes = node :: more) := by
  have further : ∀ node, Steady (moreItems operand separator bound [node] >>= closeItems close) :=
    fun node => (steady_moreItems steady separator bound [node]).bind (steady_closeItems close)
  have after : ∀ accepted : Bool, Steady (if accepted = true then pure [] else do
      let node ← operand 0
      moreItems operand separator bound [node] >>= closeItems close : Parser N (List N)) := by
    intro accepted
    cases accepted with
    | true => exact (still_pure []).steady
    | false => exact (steady 0).bind further
  -- The last two actions under one name, so that they have one specification.
  have unfolded : items operand bound separator close = (do
      let accepted ← accept close
      if accepted = true then pure [] else do
        let node ← operand 0
        moreItems operand separator bound [node] >>= closeItems close) := rfl
  rw [unfolded, gives_bind (steady_accept close) after]
  constructor
  · rintro ⟨accepted, middle, taken, given⟩
    cases accepted with
    | true =>
      -- A closing token at once: there are no items.
      obtain ⟨closing, rfl, closes⟩ := gives_accept_true.1 taken
      obtain ⟨same, rfl⟩ := (still_pure []).gives_iff.1 given
      exact .inl ⟨closing, rfl, closes, (Except.ok.inj same).symm⟩
    | false =>
      -- No closing token: an item, what follows it, and a closing token in the end.
      obtain ⟨rfl, other⟩ := gives_accept_false.1 taken
      obtain ⟨node, left, read, given⟩ := (gives_bind (steady 0) further).1 given
      obtain ⟨all, final, more, closed⟩ := (gives_bind (steady_moreItems steady separator bound
        [node]) (steady_closeItems close)).1 given
      obtain ⟨rfl, closing, rfl, closes⟩ := (closeItems_gives expects).1 closed
      obtain ⟨others, rfl, follows⟩ := further_of_moreItems steady closes more
      exact .inr ⟨other, node, left, others, read, follows, rfl⟩
  · rintro (⟨closing, rfl, closes, rfl⟩ | ⟨other, node, middle, more, read, follows, rfl⟩)
    · exact ⟨true, rest, gives_accept_true.2 ⟨closing, rfl, closes⟩,
        (still_pure []).gives_iff.2 ⟨rfl, rfl⟩⟩
    · have shorter := read.length (steady 0)
      obtain ⟨closing, closes, given⟩ :=
        moreItems_of_further steady apart follows bound [node] (by omega)
      refine ⟨false, tokens, gives_accept_false.2 ⟨rfl, other⟩,
        (gives_bind (steady 0) further).2 ⟨node, middle, read, ?_⟩⟩
      exact (gives_bind (steady_moreItems steady separator bound [node])
        (steady_closeItems close)).2
          ⟨_, _, given, (closeItems_gives expects).2 ⟨rfl, closing, rfl, closes⟩⟩

variable {node left : N} {pattern : List Step} {label : String}
  {build : Token → List (Part N) → Except Error N}

/-- A form that starts an expression builds it of what its steps find. -/
theorem runHead_form_gives (steady : ∀ strength, Steady (operand strength)) :
    (runHead operand bound token (.form label pattern build)).Gives tokens node rest ↔
      ∃ parts, (steps operand bound token none pattern).Gives tokens parts rest ∧
        build token parts = .ok node :=
  gives_bind_still (steady_steps steady bound token none pattern) fun _ => still_built _

/-- A form that continues an expression builds it of what its steps find. -/
theorem runTail_form_gives (steady : ∀ strength, Steady (operand strength)) {strength : Int} :
    (runTail operand bound token left (.form label pattern build strength)).Gives
        tokens node rest ↔
      ∃ parts, (steps operand bound token (some left) pattern).Gives tokens parts rest ∧
        build token parts = .ok node :=
  gives_bind_still (steady_steps steady bound token (some left) pattern) fun _ => still_built _

end Climb.Parser
