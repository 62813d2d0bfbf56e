import Climb.Grammar.Table
import Climb.Token.Buffer

/-! Precedence climbing: reading an expression by the rules of a grammar. -/

namespace Climb

/-- The state of one parse. -/
structure ParseState (N : Type) where
  buffer : Buffer
  /-- The nodes handed to the interpreter so far, in order. -/
  seen : List N

/-- An action on a parse, which keeps what it has done to the state also when it fails. -/
abbrev Parser (N : Type) := ExceptT Error (StateM (ParseState N))

/-- A function that every node goes through as soon as it is built. -/
abbrev Interpreter (N : Type) := N → Except Error N

namespace Parser

variable {N : Type}

/-- An operation of the buffer as an action. -/
def onBuffer {α : Type} (operation : Buffer → Except Error α × Buffer) : Parser N α :=
  fun state =>
    let (outcome, buffer) := operation state.buffer
    (outcome, { state with buffer := buffer })

/-- Removes and returns the next token, of a given type if one is expected. -/
def consume (expected : Option TokenType) : Parser N Token :=
  onBuffer fun buffer => buffer.consume expected

/-- Removes the next token if it has the given type. -/
def accept (type : TokenType) : Parser N Bool :=
  onBuffer fun buffer => buffer.accept type

/-- The token some distance ahead. -/
def peek (distance : Int) : Parser N (Option Token) :=
  onBuffer fun buffer => buffer.peekAt distance

/-- Whether the input has ended. -/
def atEnd : Parser N Bool :=
  onBuffer Buffer.atEnd

/-- Passes a new node through the interpreter, if there is one, and keeps it on record. -/
def interpret (interpreter : Option (Interpreter N)) (node : N) : Parser N N :=
  match interpreter with
  | none => pure node
  | some step => fun state => (step node, { state with seen := state.seen ++ [node] })

/-- Accepts tokens of a type as long as there are any, and counts them. -/
def acceptAll (type : TokenType) : Nat → Nat → Parser N Nat
  | 0, _ => throw (.parse .tooDeep)
  | bound + 1, count => do
    if ← accept type then acceptAll type bound (count + 1) else return count

/-- Reads further expressions, each after a separator. -/
def moreItems (operand : Int → Parser N N) (separator : TokenType) :
    Nat → List N → Parser N (List N)
  | 0, _ => throw (.parse .tooDeep)
  | bound + 1, nodes => do
    if ← accept separator then moreItems operand separator bound (nodes ++ [← operand 0])
    else return nodes

/-- Reads expressions with separators between them, up to a closing token. There may be none. -/
def items (operand : Int → Parser N N) (bound : Nat) (separator close : TokenType) :
    Parser N (List N) := do
  if ← accept close then return []
  let nodes ← moreItems operand separator bound [← operand 0]
  discard (consume close.expectation)
  return nodes

/-- Takes one step of a form. -/
def step (operand : Int → Parser N N) (bound : Nat) (token : Token) (left : Option N) :
    Step → Parser N (List (Part N))
  | .left => return left.toList.map .node
  | .operand strength => return [.node (← operand strength)]
  | .consume expected => return [.token (← consume expected)]
  | .accept type => return [.flag (← accept type)]
  | .peek distance => return [.glimpse (← peek distance)]
  | .atEnd => return [.flag (← atEnd)]
  | .items separator close => return [.nodes (← items operand bound separator close)]
  | .repeated type => return [.count (← acceptAll type bound 0)]
  | .fail message => throw (.parse (.custom message (some token)))

/-- Takes the steps of a form in order and collects what they find. -/
def steps (operand : Int → Parser N N) (bound : Nat) (token : Token) (left : Option N) :
    List Step → Parser N (List (Part N))
  | [] => return []
  | first :: rest => do
    let found ← step operand bound token left first
    return found ++ (← steps operand bound token left rest)

/-- A builder's outcome as an action. -/
def built {α : Type} (outcome : Except Error α) : Parser N α :=
  fun state => (outcome, state)

/-- Starts an expression by a rule, the token being consumed. -/
def runHead (operand : Int → Parser N N) (bound : Nat) (token : Token) :
    HeadRule N → Parser N N
  | .leaf _ build => built (build token)
  | .operator _ build strength => do
    let right ← operand strength
    built (build token right)
  | .form _ pattern build => do
    let parts ← steps operand bound token none pattern
    built (build token parts)

/-- Continues an expression by a rule, the token being consumed. -/
def runTail (operand : Int → Parser N N) (bound : Nat) (token : Token) (left : N) :
    TailRule N → Parser N N
  | .operator _ build _ => built (build token left)
  | .bare _ build _ => built (build token left)
  | .binary _ build strength associativity => do
    let right ← operand (rightStrength strength associativity)
    built (build token left right)
  | .form _ pattern build _ => do
    let parts ← steps operand bound token (some left) pattern
    built (build token parts)

end Parser

namespace Grammar

variable {N : Type}

/-- Continues an expression as long as the next token binds tighter than the minimum. -/
def climb (grammar : Grammar N) (interpreter : Option (Interpreter N))
    (operand : Int → Parser N N) (depth : Nat) (minimum : Int) : Nat → N → Parser N N
  | 0, _ => throw (.parse .tooDeep)
  | bound + 1, left => do
    let ahead ← Parser.peek 0
    if minimum < grammar.strengthOf ahead then
      let token ← Parser.consume none
      match grammar.tail? token with
      | none => throw (.parse (.noTailRule token))
      | some rule =>
        let node ← Parser.runTail operand depth token left rule
        let node ← Parser.interpret interpreter node
        grammar.climb interpreter operand depth minimum bound node
    else return left

/--
Reads one expression whose operators all bind tighter than the minimum, nesting at most `depth`
deep. One more than the number of tokens left is always enough.
-/
def expressionWithin (grammar : Grammar N) (interpreter : Option (Interpreter N)) :
    Nat → Int → Parser N N
  | 0, _ => throw (.parse .tooDeep)
  | depth + 1, minimum => do
    let token ← Parser.consume none
    match grammar.head? token with
    | none => throw (.parse (.noHeadRule token))
    | some rule =>
      let operand := grammar.expressionWithin interpreter depth
      let node ← Parser.runHead operand depth token rule
      let node ← Parser.interpret interpreter node
      grammar.climb interpreter operand depth minimum depth node

/-- Reads one expression whose operators all bind tighter than the minimum. -/
def expression (grammar : Grammar N) (interpreter : Option (Interpreter N)) (minimum : Int) :
    Parser N N := do
  let state ← get
  grammar.expressionWithin interpreter (state.buffer.size + 1) minimum

/-- Refuses a token after the expression. -/
def refuseExcess : Parser N Unit := do
  match ← Parser.peek 0 with
  | none => return ()
  | some token => throw (.parse (.excessToken token))

/--
Reads one expression, nesting at most `depth` deep, and refuses tokens after it if the input is to
be used up.
-/
def inputWithin (grammar : Grammar N) (interpreter : Option (Interpreter N)) (depth : Nat)
    (exhaust : Bool) : Parser N N := do
  let node ← grammar.expressionWithin interpreter depth 0
  if exhaust then refuseExcess
  return node

/-- Reads an expression from a source, nesting at most `depth` deep. -/
def runWithin (grammar : Grammar N) (interpreter : Option (Interpreter N)) (depth : Nat)
    (source : Source) (exhaust : Bool) : Except Error N × ParseState N :=
  grammar.inputWithin interpreter depth exhaust ⟨.ofSource source, []⟩

/-- Reads an expression from a source, each node going through the interpreter, if there is one. -/
def run (grammar : Grammar N) (interpreter : Option (Interpreter N)) (source : Source)
    (exhaust : Bool) : Except Error N × ParseState N :=
  grammar.runWithin interpreter (source.feed.size + 1) source exhaust

end Grammar

end Climb
