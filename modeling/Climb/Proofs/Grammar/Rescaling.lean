import Mathlib.Order.Monotone.Basic
import Climb.Grammar.Tree
import Climb.Proofs.Grammar.PostOrder
import Climb.Proofs.Grammar.Registration

/-! Reading depends on strengths only by their order. -/

namespace Climb

variable {N : Type}

/-- A strength with a change made to it, if it is one. -/
def Datum.rescale (change : Int → Int) : Datum → Datum
  | .int strength => .int (change strength)
  | given => given

/-- A step of a form with a change made to its strength. -/
def Step.rescale (change : Int → Int) : Step → Step
  | .operand strength => .operand (change strength)
  | other => other

/-- A rule that starts expressions with a change made to its strengths. -/
def HeadRule.rescale (change : Int → Int) : HeadRule N → HeadRule N
  | leaf label build => leaf label build
  | operator label build strength => operator label build (change strength)
  | form label pattern build => form label (pattern.map (Step.rescale change)) build

/-- A rule that continues expressions with a change made to its strengths. -/
def TailRule.rescale (change : Int → Int) : TailRule N → TailRule N
  | operator label build strength => operator label build (change strength)
  | binary label build strength associativity => binary label build (change strength) associativity
  | form label pattern build strength =>
    form label (pattern.map (Step.rescale change)) build (change strength)
  | bare label build own => bare label build (own.rescale change)

/-- A candidate with a change made to its strengths. -/
def Candidate.rescale (change : Int → Int) : Candidate N → Candidate N
  | head rule => head (rule.rescale change)
  | tail rule => tail (rule.rescale change)
  | other given => other given

/-- A request with a change made to the strengths in it. -/
def Registration.rescale (change : Int → Int) : Registration N → Registration N
  | leaf type label build => leaf type label build
  | before type label build strength => before type label build (strength.rescale change)
  | after type label build strength => after type label build (strength.rescale change)
  | between type label build strength associativity =>
    between type label build (strength.rescale change) associativity
  | headForm type label pattern build =>
    headForm type label (pattern.map (Step.rescale change)) build
  | tailForm type label pattern build strength =>
    tailForm type label (pattern.map (Step.rescale change)) build (strength.rescale change)
  | either type candidate => either type (candidate.rescale change)
  | head type candidate => head type (candidate.rescale change)
  | tail type candidate strength =>
    tail type (candidate.rescale change) (strength.rescale change)

/-- An entry of a table with a change made to its strengths. -/
def TableEntry.rescale (change : Int → Int) : TableEntry N → TableEntry N
  | head type rule => head type (rule.rescale change)
  | tail type rule strength => tail type (rule.rescale change) (change strength)

/-- A grammar with a change made to its strengths. -/
def Grammar.rescale (grammar : Grammar N) (change : Int → Int) : Grammar N where
  heads := grammar.heads.map fun entry => (entry.1, entry.2.rescale change)
  tails := grammar.tails.map fun entry => (entry.1, entry.2.1.rescale change, change entry.2.2)
  uniform := grammar.uniform.map change

variable {change : Int → Int}

/-- A minimum lies below the same strengths after a change as another did before it. -/
def Tracks (change : Int → Int) (minimum changed : Int) : Prop :=
  ∀ strength, changed < change strength ↔ minimum < strength

section

variable (increasing : StrictMono change)

include increasing

/-- A strength tracks itself. -/
theorem tracks_strength (strength : Int) : Tracks change strength (change strength) :=
  fun _ => increasing.lt_iff_lt

/-- Zero tracks itself, if it is not changed. -/
theorem tracks_zero (zero : change 0 = 0) : Tracks change 0 0 := by
  simpa only [zero] using tracks_strength increasing 0

/-- The strength of a right operand tracks itself, whether or not it is one less. -/
theorem tracks_rightStrength (strength : Int) (associativity : Associativity) :
    Tracks change (rightStrength strength associativity)
      (rightStrength (change strength) associativity) := by
  cases associativity with
  | left => exact tracks_strength increasing strength
  | right =>
    -- One less is below the same strengths as the strength itself is below or equal to.
    intro other
    have order : change strength ≤ change other ↔ strength ≤ other := increasing.le_iff_le
    simp only [rightStrength]
    omega

end

namespace Parser

variable {operand changed : Int → Parser N N}

section

variable (zero : change 0 = 0)
  (same : ∀ {minimum other}, Tracks change minimum other → changed other = operand minimum)
  (increasing : StrictMono change)

include zero same increasing

/-- Operands between separators are read at zero, which stays. -/
theorem items_rescale (bound : Nat) (separator close : TokenType) :
    items changed bound separator close = items operand bound separator close := by
  have start : changed 0 = operand 0 := same (tracks_zero increasing zero)
  have more : ∀ nodes, moreItems changed separator bound nodes =
      moreItems operand separator bound nodes := by
    induction bound with
    | zero => exact fun _ => rfl
    | succ bound ih => simp only [moreItems, start, ih, implies_true]
  simp only [items, start, more]

/-- A step does after a change what it did before. -/
theorem step_rescale (bound : Nat) (token : Token) (left : Option N) (pattern : Step) :
    step changed bound token left (pattern.rescale change) =
      step operand bound token left pattern := by
  -- Only two kinds of step read operands, and only one of them at a strength of its own.
  cases pattern with
  | operand strength =>
    have read : changed (change strength) = operand strength :=
      same (tracks_strength increasing strength)
    simp only [Step.rescale, step, read]
  | items separator close =>
    simp only [Step.rescale, step, items_rescale zero same increasing bound separator close]
  | _ => rfl

/-- The steps of a form do after a change what they did before. -/
theorem steps_rescale (bound : Nat) (token : Token) (left : Option N) (pattern : List Step) :
    steps changed bound token left (pattern.map (Step.rescale change)) =
      steps operand bound token left pattern := by
  induction pattern with
  | nil => rfl
  | cons first rest ih =>
    simp only [List.map_cons, steps, ih, step_rescale zero same increasing bound token left first]

/-- A rule starts expressions after a change as it did before. -/
theorem runHead_rescale (bound : Nat) (token : Token) (rule : HeadRule N) :
    runHead changed bound token (rule.rescale change) = runHead operand bound token rule := by
  cases rule with
  | leaf label build => rfl
  | operator label build strength =>
    simp only [HeadRule.rescale, runHead, same (tracks_strength increasing strength)]
  | form label pattern build =>
    simp only [HeadRule.rescale, runHead, steps_rescale zero same increasing bound token none]

/-- A rule continues expressions after a change as it did before. -/
theorem runTail_rescale (bound : Nat) (token : Token) (left : N) (rule : TailRule N) :
    runTail changed bound token left (rule.rescale change) =
      runTail operand bound token left rule := by
  -- Only a right operand and the steps of a form are read at a strength of the rule.
  cases rule with
  | operator label build strength => rfl
  | bare label build own => rfl
  | binary label build strength associativity =>
    simp only [TailRule.rescale, runTail,
      same (tracks_rightStrength increasing strength associativity)]
  | form label pattern build strength =>
    simp only [TailRule.rescale, runTail,
      steps_rescale zero same increasing bound token (some left)]

end

end Parser

namespace Grammar

variable (grammar : Grammar N)

/-- A token starts expressions by the rule that it had before the change. -/
theorem rescale_head? (token : Token) :
    (grammar.rescale change).head? token = (grammar.head? token).map (HeadRule.rescale change) :=
  Table.get?_map grammar.heads (HeadRule.rescale change) token.type

/-- The entry of a type in the second table is the one from before the change. -/
theorem rescale_tails_get? (type : TokenType) :
    (grammar.rescale change).tails.get? type =
      (grammar.tails.get? type).map fun rule => (rule.1.rescale change, change rule.2) :=
  Table.get?_map grammar.tails (fun rule => (rule.1.rescale change, change rule.2)) type

/-- A token continues expressions by the rule that it had before the change. -/
theorem rescale_tail? (token : Token) :
    (grammar.rescale change).tail? token = (grammar.tail? token).map (TailRule.rescale change) := by
  simp only [tail?, rescale_tails_get?, Option.map_map]
  rfl

/-- A token binds as strongly as the change says. -/
theorem rescale_strengthOf (zero : change 0 = 0) (ahead : Option Token) :
    (grammar.rescale change).strengthOf ahead = change (grammar.strengthOf ahead) := by
  cases ahead with
  | none => exact zero.symm
  | some token =>
    -- A token without a rule binds with strength zero, before and after.
    simp only [strengthOf, rescale_tails_get?]
    cases uniform : grammar.uniform with
    | some strength => simp only [rescale, uniform, Option.map_some]
    | none =>
      simp only [rescale, uniform, Option.map_none]
      cases grammar.tails.get? token.type with
      | none => exact zero.symm
      | some rule => rfl

section

variable {grammar} {interpreter : Option (Interpreter N)} (increasing : StrictMono change)
  (zero : change 0 = 0)

include increasing zero

/-- Climbing above a minimum is climbing above one that tracks it. -/
theorem climb_rescale {operand changed : Int → Parser N N}
    (same : ∀ {minimum other}, Tracks change minimum other → changed other = operand minimum)
    (depth : Nat) {minimum other : Int} (tracks : Tracks change minimum other) (bound : Nat) :
    ∀ left, (grammar.rescale change).climb interpreter changed depth other bound left =
      grammar.climb interpreter operand depth minimum bound left := by
  -- Both loops see the same token ahead, which is above both minima or above neither.
  induction bound with
  | zero => exact fun _ => rfl
  | succ bound ih =>
    intro left
    simp only [climb, rescale_strengthOf grammar zero, tracks (grammar.strengthOf _),
      rescale_tail?]
    refine congrArg (Parser.peek 0 >>= ·) (funext fun ahead => ?_)
    split
    · refine congrArg (Parser.consume none >>= ·) (funext fun token => ?_)
      cases grammar.tail? token with
      | none => rfl
      | some rule =>
        simp only [Option.map_some,
          Parser.runTail_rescale zero same increasing depth token left rule,
          ih]
    · rfl

/-- Reading above a minimum is reading above one that tracks it. -/
theorem expressionWithin_rescale (depth : Nat) :
    ∀ {minimum other : Int}, Tracks change minimum other →
      (grammar.rescale change).expressionWithin interpreter depth other =
        grammar.expressionWithin interpreter depth minimum := by
  -- Operands are read one level down, where the two grammars are known to agree.
  induction depth with
  | zero => exact fun _ => rfl
  | succ depth ih =>
    intro minimum other tracks
    simp only [expressionWithin, rescale_head?]
    refine congrArg (Parser.consume none >>= ·) (funext fun token => ?_)
    cases grammar.head? token with
    | none => rfl
    | some rule =>
      simp only [Option.map_some, Parser.runHead_rescale zero ih increasing depth token rule,
        climb_rescale increasing zero ih depth tracks depth]

/-- A run by a grammar with a change made to its strengths is the run by the grammar itself. -/
theorem run_rescale (source : Source) (exhaust : Bool) :
    (grammar.rescale change).run interpreter source exhaust =
      grammar.run interpreter source exhaust := by
  simp only [run, runWithin, inputWithin,
    expressionWithin_rescale increasing zero _ (tracks_zero increasing zero)]

end

end Grammar

/-- An outcome made in two parts is there if both are. -/
theorem toOption_bind {α β : Type} (first : Except Error α) (next : α → Except Error β) :
    (first >>= next).toOption = first.toOption.bind fun value => (next value).toOption := by
  -- Which failure it is does not matter here, as messages name the strengths that were given.
  cases first <;> rfl

/-- An outcome that is changed is there if it was before. -/
theorem toOption_map {α β : Type} (outcome : Except Error α) (next : α → β) :
    (outcome.map next).toOption = outcome.toOption.map next := by
  cases outcome <;> rfl

/-- A changed strength is read as the change of the one that was read before. -/
theorem readStrength_rescale (given : Datum) :
    (readStrength (given.rescale change)).toOption = (readStrength given).toOption.map change := by
  cases given <;> rfl

namespace Grammar

/-- The strength that decides after a change is the change of the one that decided before. -/
theorem decisiveStrength_rescale (rule : TailRule N) (given : Datum) :
    decisiveStrength (rule.rescale change) (given.rescale change) =
      (decisiveStrength rule given).rescale change := by
  -- Whether a strength is given decides, and that is the same before and after.
  cases given <;> cases rule <;> rfl

/-- A rule is registered after a change if it was before, since what is positive stays so. -/
theorem tailStrength_rescale (increasing : StrictMono change) (zero : change 0 = 0)
    (rule : TailRule N) (given : Datum) :
    (tailStrength (rule.rescale change) (given.rescale change)).toOption =
      (tailStrength rule given).toOption.map change := by
  -- Zero stays where it is, so no strength changes its side of it.
  have positive : ∀ strength, change strength ≤ 0 ↔ strength ≤ 0 := by
    intro strength
    rw [← zero, increasing.le_iff_le, zero]
  have unfolded : ∀ (rule : TailRule N) given, tailStrength rule given = (do
      let strength ← readStrength (decisiveStrength rule given)
      if strength ≤ 0 then .error (.grammar (.strengthNotPositive strength))
      else .ok strength) := fun _ _ => rfl
  rw [unfolded, unfolded, decisiveStrength_rescale, toOption_bind, toOption_bind,
    readStrength_rescale]
  cases (readStrength (decisiveStrength rule given)).toOption with
  | none => rfl
  | some strength =>
    simp only [Option.map_some, Option.bind_some, positive]
    split <;> rfl

end Grammar

/-- A candidate has the same place after a change as before. -/
theorem Candidate.entryAt_rescale (increasing : StrictMono change) (zero : change 0 = 0)
    (candidate : Candidate N) (position? : Option Position) (type : TokenType) (given : Datum) :
    ((candidate.rescale change).entryAt position? type (given.rescale change)).toOption =
      (candidate.entryAt position? type given).toOption.map (TableEntry.rescale change) := by
  cases candidate with
  | other value => rfl
  | head rule =>
    simp only [rescale, entryAt]
    split <;> rfl
  | tail rule =>
    simp only [rescale, entryAt]
    split
    · rfl
    · -- The strength is the only thing that is judged, and it is judged alike.
      simp only [toOption_map, Grammar.tailStrength_rescale increasing zero, Option.map_map]
      rfl

namespace Registration

/-- A request brings the same rule after a change, with its strengths changed. -/
theorem offer_rescale (request : Registration N) :
    (request.rescale change).offer.toOption =
      request.offer.toOption.map (Candidate.rescale change) := by
  -- Where a rule is made of a strength, the strength is read first, and from the changed one.
  cases request with
  | before type label build strength => cases strength <;> rfl
  | after type label build strength => cases strength <;> rfl
  | tailForm type label pattern build strength => cases strength <;> rfl
  | between type label build strength associativity =>
    cases associativity <;> cases strength <;> rfl
  | _ => rfl

/-- A request writes the same entry after a change, with its strengths changed, or none. -/
theorem entry_rescale (increasing : StrictMono change) (zero : change 0 = 0)
    (request : Registration N) :
    (request.rescale change).entry.toOption =
      request.entry.toOption.map (TableEntry.rescale change) := by
  -- What a request is for and where it insists on being does not change.
  have type : (request.rescale change).type = request.type := by cases request <;> rfl
  have position : (request.rescale change).position? = request.position? := by
    cases request <;> rfl
  have strength : (request.rescale change).strength = request.strength.rescale change := by
    cases request <;> rfl
  simp only [entry, toOption_bind, offer_rescale, type, position, strength, Option.bind_map,
    Option.map_bind, Function.comp_def, Candidate.entryAt_rescale increasing zero]

/-- The entries that requests write after a change are those from before it, changed. -/
theorem granted_rescale (increasing : StrictMono change) (zero : change 0 = 0)
    (requests : List (Registration N)) :
    granted (requests.map (rescale change)) =
      (granted requests).map (TableEntry.rescale change) := by
  simp only [granted, List.filterMap_map, List.map_filterMap, Function.comp_def,
    entry_rescale increasing zero]

end Registration

/-- A rule is inserted into a changed table as it is into the table before the change. -/
theorem Table.insert_map {R S : Type} (table : Table R) (change : R → S) (type : TokenType)
    (rule : R) :
    insert (table.map fun entry => (entry.1, change entry.2)) type (change rule) =
      (insert table type rule).map fun entry => (entry.1, change entry.2) := by
  -- The place of the type is looked for by the types alone, which are left as they were.
  induction table with
  | nil => rfl
  | cons entry rest ih =>
    simp only [List.map_cons, insert]
    split
    · rfl
    · simp only [List.map_cons, ih]

namespace Grammar

/-- An entry is written after a change where it was before. -/
theorem write_rescale (grammar : Grammar N) (entry : TableEntry N) :
    (grammar.rescale change).write (entry.rescale change) =
      (grammar.write entry).rescale change := by
  cases entry with
  | head type rule =>
    simp only [rescale, TableEntry.rescale, write,
      Table.insert_map grammar.heads (HeadRule.rescale change) type rule]
  | tail type rule strength =>
    simp only [rescale, TableEntry.rescale, write,
      Table.insert_map grammar.tails (fun rule => (rule.1.rescale change, change rule.2)) type
        (rule, strength)]

/-- Requests with changed strengths make the changed grammar. -/
theorem extend_rescale (increasing : StrictMono change) (zero : change 0 = 0)
    (grammar : Grammar N) (requests : List (Registration N)) :
    (grammar.rescale change).extend (requests.map (Registration.rescale change)) =
      (grammar.extend requests).rescale change := by
  rw [extend_eq_foldl, extend_eq_foldl, Registration.granted_rescale increasing zero,
    List.foldl_map]
  -- Along the entries, each of which is written into the changed grammar as into the other.
  induction Registration.granted requests generalizing grammar with
  | nil => rfl
  | cons entry rest ih => rw [List.foldl_cons, List.foldl_cons, write_rescale, ih]

/-- A request is granted after a change if it is before, whatever the two grammars hold. -/
theorem apply_rescale (increasing : StrictMono change) (zero : change 0 = 0)
    (grammar changed : Grammar N) (request : Registration N) :
    (changed.apply (request.rescale change)).isOk = (grammar.apply request).isOk := by
  -- Whether a request is granted does not depend on what was granted before.
  have granted : ∀ (grammar : Grammar N) (request : Registration N),
      (grammar.apply request).isOk = request.entry.toOption.isSome := by
    intro grammar request
    rw [apply_eq]
    cases request.entry <;> rfl
  rw [granted, granted, Registration.entry_rescale increasing zero, Option.isSome_map]

/--
Only the order of strengths matters. Requests are made a second time with a strictly increasing
change, which leaves zero alone, applied to every strength in them. Each is granted the second time
if it was the first time. Both grammars then read every source alike, with every interpreter or
none: they end with the same node or the same failure, have handed the same nodes to the
interpreter, and leave the source where the other leaves it.
-/
theorem only_the_order_of_strengths_matters (requests : List (Registration N))
    {change : Int → Int} (increasing : StrictMono change) (zero : change 0 = 0) :
    let grammar : Grammar N := ({} : Grammar N).extend requests
    let changed : Grammar N := ({} : Grammar N).extend (requests.map (Registration.rescale change))
    (∀ before request, before ++ [request] <+: requests →
      ((({} : Grammar N).extend (before.map (Registration.rescale change))).apply
        (request.rescale change)).isOk = ((({} : Grammar N).extend before).apply request).isOk) ∧
    ∀ (interpreter : Option (Interpreter N)) (source : Source) (exhaust : Bool),
      changed.run interpreter source exhaust = grammar.run interpreter source exhaust := by
  intro grammar changed
  refine ⟨fun before request _ => apply_rescale increasing zero _ _ request,
    fun interpreter source exhaust => ?_⟩
  -- A grammar without rules is not changed, so both histories begin alike.
  have same : changed = grammar.rescale change :=
    extend_rescale increasing zero ({} : Grammar N) requests
  rw [same]
  exact run_rescale increasing zero source exhaust

/-- Ten times the strengths give other minima, but the same tree from the same tokens. -/
theorem tenfold_strengths_read_alike :
    let word (text : String) : Token := ⟨.text text, some text⟩
    let build (tag : String) : Tree.Builder := .tagged (.text tag)
    let requests : List (Registration Tree) := [.leaf (.text "n") "n" (build "n").leaf,
      .before (.text "-") "neg" (build "neg").unary (.int 3),
      .between (.text "^") "pow" (build "pow").binary (.int 2) (.ok .right),
      .between (.text "+") "add" (build "add").binary (.int 1) (.ok .left)]
    let tenfold : Int → Int := fun strength => 10 * strength
    let tokens := [word "-", word "n", word "^", word "n", word "^", word "n", word "+", word "n"]
    let node (tag text : String) (parts : List Tree) : Tree :=
      .node (.text tag) (some text) (parts.map .node)
    let n := node "n" "n" []
    let tree := node "add" "+" [node "pow" "^" [node "neg" "-" [n], node "pow" "^" [n, n]], n]
    StrictMono tenfold ∧ tenfold 0 = 0 ∧
      ((({} : Grammar Tree).extend requests).run none (.ofTokens tokens) true).1 = .ok tree ∧
      ((({} : Grammar Tree).extend (requests.map (Registration.rescale tenfold))).run none
        (.ofTokens tokens) true).1 = .ok tree := by
  intro word build requests tenfold tokens node n tree
  have increasing : StrictMono tenfold := fun one other less => by
    simp only [tenfold]
    omega
  have read : ((({} : Grammar Tree).extend requests).run none (.ofTokens tokens) true).1 =
      .ok tree := by
    cbv
  have same := (only_the_order_of_strengths_matters requests increasing rfl).2 none
    (.ofTokens tokens) true
  exact ⟨increasing, rfl, read, by rw [same, read]⟩

end Grammar

end Climb
