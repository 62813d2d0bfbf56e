import Mathlib
import Climb.Proofs.Expr.Recognition

/-! A group in parentheses stands wherever a name does. -/

namespace Climb.Expr

/-- A name in an expression: one that is an operand, or one that is given a value. -/
inductive Mention where
  | leaf (label : Label)
  | target (label : Label)
deriving Repr, DecidableEq

mutual

/-- The names in an expression, in the order in which they are written. -/
def mentions : Expr → List Mention
  | name label => [.leaf label]
  | number _ => []
  | assign target value => .target target :: value.mentions
  | pre _ operand => operand.mentions
  | post _ operand => operand.mentions
  | bin left _ right => left.mentions ++ right.mentions
  | cond condition chosen other => condition.mentions ++ (chosen.mentions ++ other.mentions)
  | call callee args => callee.mentions ++ mentionsAll args
  | foreign _ => []

/-- The names in expressions, in order. -/
def mentionsAll : List Expr → List Mention
  | [] => []
  | first :: rest => first.mentions ++ mentionsAll rest

end

mutual

/-- An expression with another in place of the leaf that comes after a number of names. -/
def replaceLeaf : Expr → Nat → Expr → Expr
  | name label, place, other => if place = 0 then other else name label
  | number value, _, _ => number value
  | assign target value, 0, _ => assign target value
  | assign target value, place + 1, other => assign target (value.replaceLeaf place other)
  | pre op operand, place, other => pre op (operand.replaceLeaf place other)
  | post op operand, place, other => post op (operand.replaceLeaf place other)
  | bin left op right, place, other =>
    if place < left.mentions.length then bin (left.replaceLeaf place other) op right
    else bin left op (right.replaceLeaf (place - left.mentions.length) other)
  | cond condition chosen rest, place, other =>
    if place < condition.mentions.length then
      cond (condition.replaceLeaf place other) chosen rest
    else
      let behind := place - condition.mentions.length
      if behind < chosen.mentions.length then
        cond condition (chosen.replaceLeaf behind other) rest
      else cond condition chosen (rest.replaceLeaf (behind - chosen.mentions.length) other)
  | call callee args, place, other =>
    if place < callee.mentions.length then call (callee.replaceLeaf place other) args
    else call callee (replaceLeafAmong args (place - callee.mentions.length) other)
  | foreign value, _, _ => foreign value

/-- Expressions with another in place of the leaf that comes after a number of names. -/
def replaceLeafAmong : List Expr → Nat → Expr → List Expr
  | [], _, _ => []
  | first :: rest, place, other =>
    if place < first.mentions.length then first.replaceLeaf place other :: rest
    else first :: replaceLeafAmong rest (place - first.mentions.length) other

end

/-- How many names there are among tokens. -/
def nameCount (tokens : List Token) : Nat :=
  tokens.countP fun token => token.type = .kind .name

/-- The names of two lists are those of both. -/
@[simp] theorem nameCount_append (tokens more : List Token) :
    nameCount (tokens ++ more) = nameCount tokens + nameCount more :=
  List.countP_append

/-- A name counts as one. -/
theorem nameCount_name {token : Token} (rest : List Token) (named : token.type = .kind .name) :
    nameCount (token :: rest) = nameCount rest + 1 := by
  simp [nameCount, named]

/-- A token of another type does not count. -/
theorem nameCount_skip {token : Token} {type : TokenType} (rest : List Token)
    (typed : token.type = type) (other : type ≠ .kind .name) :
    nameCount (token :: rest) = nameCount rest := by
  simp [nameCount, typed, other]

/-- No operator of a list of operators counts. -/
theorem nameCount_operator {token : Token} {types : List TokenType} (rest : List Token)
    (typed : token.type ∈ types) (other : .kind .name ∉ types) :
    nameCount (token :: rest) = nameCount rest :=
  nameCount_skip rest rfl fun same => other (same ▸ typed)

/-- Lists that are parted at a name with equally many names before it are parted alike. -/
theorem eq_of_nameCount {before after front back : List Token} {token other : Token}
    (same : before ++ token :: after = front ++ other :: back) (named : token.type = .kind .name)
    (otherNamed : other.type = .kind .name) (equal : nameCount before = nameCount front) :
    before = front ∧ token = other ∧ after = back := by
  -- The two are walked through side by side; one that ends first has its name there already.
  induction before generalizing front with
  | nil =>
    cases front with
    | nil => simpa using same
    | cons first front =>
      obtain ⟨rfl, -⟩ := List.cons.inj same
      rw [nameCount_name _ named] at equal
      cases equal
  | cons first before ih =>
    cases front with
    | nil =>
      obtain ⟨rfl, -⟩ := List.cons.inj same
      rw [nameCount_name _ otherNamed] at equal
      cases equal
    | cons second front =>
      obtain ⟨rfl, rest⟩ := List.cons.inj same
      have behind : nameCount before = nameCount front := by
        simpa [nameCount, List.countP_cons] using equal
      obtain ⟨rfl, rfl, rfl⟩ := ih rest behind
      exact ⟨rfl, rfl, rfl⟩

/-- The names of further arguments are as many as their name tokens, if that goes for each. -/
theorem length_mentionsAll {others : List Argument}
    (commas : ∀ other ∈ others, other.comma.type = .kind .comma)
    (each : ∀ other ∈ others, other.value.mentions.length = nameCount other.tokens) :
    (mentionsAll (others.map Argument.value)).length = nameCount (others.flatMap Argument.all) := by
  induction others with
  | nil => rfl
  | cons first rest ih =>
    obtain ⟨comma, commas⟩ := List.forall_mem_cons.1 commas
    obtain ⟨one, each⟩ := List.forall_mem_cons.1 each
    -- The comma before an argument is no name.
    rw [List.map_cons, mentionsAll, List.length_append, one, ih commas each, List.flatMap_cons,
      Argument.all, nameCount_append, nameCount_skip _ comma (by decide)]

/-- The names of an expression are as many as the name tokens that it is derived from. -/
theorem Derives.length_mentions {stratum : Stratum} {tokens : List Token} {expr : Expr}
    (derived : Derives stratum tokens expr) : expr.mentions.length = nameCount tokens := by
  -- The induction is on the derivation. The tokens that a rule adds to those of its parts are no
  -- names, but for the name itself; the target of an assignment is a part of its own.
  induction derived with
  | name typed => exact (nameCount_name [] typed).symm
  | number typed read => exact (nameCount_skip [] typed (by decide)).symm
  | group opens inner closes ih =>
    rw [ih, nameCount_skip _ opens (by decide), nameCount_append,
      nameCount_skip [] closes (by decide)]
    rfl
  | tighter step inner ih => exact ih
  | post inner typed ih =>
    rw [nameCount_append, nameCount_skip [] typed (by decide)]
    exact ih
  | callNone inner opens closes ih =>
    rw [nameCount_append, nameCount_skip _ opens (by decide), nameCount_skip [] closes (by decide),
      mentions, List.length_append, ih]
    rfl
  | call inner opens one commas more closes ih ihOne ihMore =>
    rw [nameCount_append, nameCount_skip _ opens (by decide), nameCount_append, nameCount_append,
      nameCount_skip [] closes (by decide), mentions, List.length_append, ih, mentionsAll,
      List.length_append, ihOne, length_mentionsAll commas ihMore]
    rfl
  | pre typed inner ih =>
    rw [nameCount_operator _ typed (by decide)]
    exact ih
  | power base typed exponent ihBase ihExponent =>
    rw [nameCount_append, nameCount_skip _ typed (by decide), mentions, List.length_append, ihBase,
      ihExponent]
  | product one typed other ihOne ihOther =>
    rw [nameCount_append, nameCount_operator _ typed (by decide), mentions, List.length_append,
      ihOne, ihOther]
  | sum one typed other ihOne ihOther =>
    rw [nameCount_append, nameCount_operator _ typed (by decide), mentions, List.length_append,
      ihOne, ihOther]
  | cond inner asks one splits two ih ihOne ihTwo =>
    rw [nameCount_append, nameCount_skip _ asks (by decide), nameCount_append,
      nameCount_skip _ splits (by decide), mentions, List.length_append, List.length_append, ih,
      ihOne, ihTwo]
  | assign name typed value ihName ihValue =>
    rw [nameCount_append, nameCount_skip _ typed (by decide), mentions, List.length_cons, ihValue,
      ← ihName, Nat.add_comm]
    rfl
  | sequence one typed other ihOne ihOther =>
    rw [nameCount_append, nameCount_skip _ typed (by decide), mentions, List.length_append, ihOne,
      ihOther]

/-- The tokens are those of further arguments, each behind its comma. -/
def DerivesFurther (tokens : List Token) (args : List Expr) : Prop :=
  ∃ others : List Argument, others.flatMap Argument.all = tokens ∧
    others.map Argument.value = args ∧ (∀ other ∈ others, other.comma.type = .kind .comma) ∧
    ∀ other ∈ others, Derives .sequence other.tokens other.value

/--
A name token among the tokens is the leaf at a place of what they are derived as. A group in its
stead is derived too, and changes that leaf to what the group stands for.
-/
inductive HasSlot {α : Type} (derives : List Token → α → Prop) (replace : α → Nat → Expr → α) :
    List Token → α → Nat → Label → Prop
  | between (before after : List Token) (token : Token) (whole : α)
      (named : token.type = .kind .name)
      (gives : ∀ {group : List Token} {other : Expr}, Derives .atom group other →
        derives (before ++ (group ++ after)) (replace whole (nameCount before) other)) :
    HasSlot derives replace (before ++ token :: after) whole (nameCount before)
      (some (token.text.getD ""))

/-- A slot of a part is one of the whole, if the whole is derived from the part as it is. -/
theorem HasSlot.extend {α β : Type} {derives : List Token → α → Prop}
    {replace : α → Nat → Expr → α} {outer : List Token → β → Prop}
    {exchange : β → Nat → Expr → β} {tokens list : List Token} {part : α} {place whole : Nat}
    {label : Label} (slot : HasSlot derives replace tokens part place label)
    (front back : List Token) (build : α → β) (all : list = front ++ (tokens ++ back))
    (placed : whole = nameCount front + place)
    (grows : ∀ {tokens : List Token} {part : α}, derives tokens part →
      outer (front ++ (tokens ++ back)) (build part))
    (into : ∀ other, exchange (build part) whole other = build (replace part place other)) :
    HasSlot outer exchange list (build part) whole label := by
  subst all placed
  cases slot with
  | between before after token _ named gives =>
    -- What stands around the part goes to what stands around the name.
    have split : front ++ (before ++ token :: after ++ back) =
        (front ++ before) ++ token :: (after ++ back) := by simp
    rw [split, ← nameCount_append]
    refine .between _ _ token _ named fun {group other} atom => ?_
    have derived := grows (gives atom)
    rw [← into, ← nameCount_append] at derived
    simpa only [List.append_assoc] using derived

/-- Every leaf of the expression that the tokens are derived as has a slot among them. -/
def Slotted (stratum : Stratum) (tokens : List Token) (expr : Expr) : Prop :=
  ∀ (place : Nat) (label : Label), expr.mentions[place]? = some (.leaf label) →
    HasSlot (Derives stratum) replaceLeaf tokens expr place label

variable {stratum lower upper outer : Stratum} {tokens leftTokens rightTokens : List Token}
  {expr left right : Expr}

/-- What is built of one expression, with no other name beside it, has the slots of that. -/
theorem Slotted.around {inner : Stratum} {list : List Token} (slots : Slotted inner tokens expr)
    (front back : List Token) (build : Expr → Expr) (all : list = front ++ (tokens ++ back))
    (skipped : nameCount front = 0)
    (grows : ∀ {tokens : List Token} {expr : Expr}, Derives inner tokens expr →
      Derives outer (front ++ (tokens ++ back)) (build expr))
    (same : (build expr).mentions = expr.mentions)
    (into : ∀ place other, place < expr.mentions.length →
      (build expr).replaceLeaf place other = build (expr.replaceLeaf place other)) :
    Slotted outer list (build expr) := by
  intro place label found
  -- The place is one of the part, since the whole has no other names.
  rw [same] at found
  obtain ⟨inside, -⟩ := List.getElem?_eq_some_iff.1 found
  exact (slots place label found).extend front back build all (by omega) grows fun other =>
    into place other inside

/-- The slots of an operator between operands are those of its operands. -/
theorem slotted_bin {token : Token} {op : Label} (one : Derives lower leftTokens left)
    (other : Derives upper rightTokens right) (skipped : nameCount [token] = 0)
    (rule : ∀ {leftTokens rightTokens : List Token} {left right : Expr},
      Derives lower leftTokens left → Derives upper rightTokens right →
        Derives outer (leftTokens ++ token :: rightTokens) (.bin left op right))
    (slotsLeft : Slotted lower leftTokens left) (slotsRight : Slotted upper rightTokens right) :
    Slotted outer (leftTokens ++ token :: rightTokens) (.bin left op right) := by
  intro place label found
  -- The names of the left operand come first, and are as many as its tokens have.
  have length := one.length_mentions
  rw [mentions, List.getElem?_append] at found
  by_cases inside : place < left.mentions.length
  · rw [if_pos inside] at found
    refine (slotsLeft _ label found).extend [] (token :: rightTokens) (Expr.bin · op right) rfl
      (Nat.zero_add _).symm (fun derived => rule derived other) fun _ => ?_
    rw [replaceLeaf, if_pos inside]
  · -- A place behind them is one of the right operand, behind the operator as well.
    rw [if_neg inside] at found
    refine (slotsRight _ label found).extend (leftTokens ++ [token]) [] (Expr.bin left op ·)
      (by simp)
      (by rw [nameCount_append]; omega) (fun derived => by simpa using rule one derived) fun _ => ?_
    rw [replaceLeaf, if_neg inside]

/-- The slots of a conditional are those of its three parts. -/
theorem slotted_cond {question colon : Token} {chosenTokens otherTokens : List Token}
    {condition chosen other : Expr} (inner : Derives .sum tokens condition)
    (asks : question.type = .kind .question) (one : Derives .sequence chosenTokens chosen)
    (splits : colon.type = .kind .colon) (two : Derives .conditional otherTokens other)
    (slots : Slotted .sum tokens condition) (slotsOne : Slotted .sequence chosenTokens chosen)
    (slotsTwo : Slotted .conditional otherTokens other) :
    Slotted .conditional (tokens ++ question :: (chosenTokens ++ colon :: otherTokens))
      (.cond condition chosen other) := by
  intro place label found
  have length := inner.length_mentions
  have lengthOne := one.length_mentions
  have noQuestion : nameCount [question] = 0 := nameCount_skip [] asks (by decide)
  have noColon : nameCount [colon] = 0 := nameCount_skip [] splits (by decide)
  rw [mentions, List.getElem?_append] at found
  -- The leaf is in the condition or in one of the arms, each behind the tokens before it.
  by_cases inside : place < condition.mentions.length
  · rw [if_pos inside] at found
    refine (slots _ label found).extend [] (question :: (chosenTokens ++ colon :: otherTokens))
      (Expr.cond · chosen other) rfl (Nat.zero_add _).symm
      (fun derived => .cond derived asks one splits two) fun _ => ?_
    rw [replaceLeaf, if_pos inside]
  · rw [if_neg inside, List.getElem?_append] at found
    by_cases early : place - condition.mentions.length < chosen.mentions.length
    · rw [if_pos early] at found
      refine (slotsOne _ label found).extend (tokens ++ [question]) (colon :: otherTokens)
        (Expr.cond condition · other) (by simp) (by rw [nameCount_append]; omega)
        (fun derived => by simpa using Derives.cond inner asks derived splits two) fun _ => ?_
      simp only [replaceLeaf, if_neg inside, if_pos early]
    · rw [if_neg early] at found
      refine (slotsTwo _ label found).extend (tokens ++ [question] ++ (chosenTokens ++ [colon])) []
        (Expr.cond condition chosen ·) (by simp) (by simp only [nameCount_append]; omega)
        (fun derived => by simpa using Derives.cond inner asks one splits derived) fun _ => ?_
      simp only [replaceLeaf, if_neg inside, if_neg early]

/-- The slots of further arguments are those of each of them. -/
theorem slotted_further {others : List Argument}
    (commas : ∀ other ∈ others, other.comma.type = .kind .comma)
    (derived : ∀ other ∈ others, Derives .sequence other.tokens other.value)
    (slots : ∀ other ∈ others, Slotted .sequence other.tokens other.value) {place : Nat}
    {label : Label}
    (found : (mentionsAll (others.map Argument.value))[place]? = some (.leaf label)) :
    HasSlot DerivesFurther replaceLeafAmong (others.flatMap Argument.all)
      (others.map Argument.value) place label := by
  induction others generalizing place with
  | nil => simp [mentionsAll] at found
  | cons first rest ih =>
    obtain ⟨comma, commas⟩ := List.forall_mem_cons.1 commas
    obtain ⟨one, derived⟩ := List.forall_mem_cons.1 derived
    obtain ⟨slot, slots⟩ := List.forall_mem_cons.1 slots
    have length := one.length_mentions
    have noComma : nameCount [first.comma] = 0 := nameCount_skip [] comma (by decide)
    rw [List.map_cons, mentionsAll, List.getElem?_append] at found
    -- The leaf is in this argument, or in one of the others, which are derived as they were.
    by_cases inside : place < first.value.mentions.length
    · rw [if_pos inside] at found
      refine (slot _ label found).extend [first.comma] (rest.flatMap Argument.all)
        (· :: rest.map Argument.value) (by simp [Argument.all]) (by omega)
        (fun {tokens expr} changed => ⟨⟨first.comma, tokens, expr⟩ :: rest, by simp [Argument.all],
          rfl, List.forall_mem_cons.2 ⟨comma, commas⟩,
          List.forall_mem_cons.2 ⟨changed, derived⟩⟩) fun _ => ?_
      rw [replaceLeafAmong, if_pos inside]
    · rw [if_neg inside] at found
      refine (ih commas derived slots found).extend ([first.comma] ++ first.tokens) []
        (first.value :: ·) (by simp [Argument.all]) (by rw [nameCount_append]; omega) ?_ fun _ => ?_
      · rintro tokens args ⟨changed, rfl, rfl, separated, each⟩
        exact ⟨first :: changed, by simp [Argument.all], rfl,
          List.forall_mem_cons.2 ⟨comma, separated⟩, List.forall_mem_cons.2 ⟨one, each⟩⟩
      · rw [replaceLeafAmong, if_neg inside]

/-- The slots of a call are those of its callee and of its arguments. -/
theorem slotted_call {opening closing : Token} {firstTokens : List Token} {callee first : Expr}
    {others : List Argument} (inner : Derives .suffix tokens callee)
    (opens : opening.type = .kind .lparen) (one : Derives .sequence firstTokens first)
    (commas : ∀ other ∈ others, other.comma.type = .kind .comma)
    (more : ∀ other ∈ others, Derives .sequence other.tokens other.value)
    (closes : closing.type = .kind .rparen) (slots : Slotted .suffix tokens callee)
    (slotsOne : Slotted .sequence firstTokens first)
    (slotsMore : ∀ other ∈ others, Slotted .sequence other.tokens other.value) :
    Slotted .suffix
      (tokens ++ opening :: (firstTokens ++ (others.flatMap Argument.all ++ [closing])))
      (.call callee (first :: others.map Argument.value)) := by
  intro place label found
  have length := inner.length_mentions
  have lengthOne := one.length_mentions
  have noOpening : nameCount [opening] = 0 := nameCount_skip [] opens (by decide)
  rw [mentions, mentionsAll, List.getElem?_append] at found
  -- The leaf is in the callee, in the first argument, or in a further one behind its comma.
  by_cases inside : place < callee.mentions.length
  · rw [if_pos inside] at found
    refine (slots _ label found).extend []
      (opening :: (firstTokens ++ (others.flatMap Argument.all ++ [closing])))
      (Expr.call · (first :: others.map Argument.value)) rfl (Nat.zero_add _).symm
      (fun derived => .call derived opens one commas more closes) fun _ => ?_
    rw [replaceLeaf, if_pos inside]
  · rw [if_neg inside, List.getElem?_append] at found
    by_cases early : place - callee.mentions.length < first.mentions.length
    · rw [if_pos early] at found
      refine (slotsOne _ label found).extend (tokens ++ [opening])
        (others.flatMap Argument.all ++ [closing])
        (fun first => Expr.call callee (first :: others.map Argument.value)) (by simp)
        (by rw [nameCount_append]; omega)
        (fun derived => by simpa using Derives.call inner opens derived commas more closes)
        fun _ => ?_
      rw [replaceLeaf, if_neg inside, replaceLeafAmong, if_pos early]
    · rw [if_neg early] at found
      refine (slotted_further commas more slotsMore found).extend
        (tokens ++ [opening] ++ firstTokens) [closing]
        (fun args => Expr.call callee (first :: args))
        (by simp) (by simp only [nameCount_append]; omega) ?_ fun _ => ?_
      · rintro tokens args ⟨changed, rfl, rfl, separated, each⟩
        simpa using Derives.call inner opens one separated each closes
      · rw [replaceLeaf, if_neg inside, replaceLeafAmong, if_neg early]

/-- Every leaf of an expression is a name token that a group may stand for. -/
theorem Derives.slotted (derived : Derives stratum tokens expr) : Slotted stratum tokens expr := by
  -- The induction is on the derivation: a slot of a part is one of the whole, since each rule takes
  -- whatever is derived in the same stratum for that part.
  induction derived with
  | @name token typed =>
    intro place label found
    cases place with
    | zero =>
      -- A lone name is an atom, for which the group stands.
      obtain rfl : some (token.text.getD "") = label := by simpa [mentions] using found
      refine .between [] [] token _ typed fun {group other} atom => ?_
      simpa [replaceLeaf, nameCount] using atom
    | succ place => simp [mentions] at found
  | number typed read => exact fun _ _ found => by simp [mentions] at found
  | @group opening closing tokens expr opens inner closes ih =>
    exact ih.around [opening] [closing] id rfl (nameCount_skip [] opens (by decide))
      (fun derived => .group opens derived closes) rfl fun _ _ _ => rfl
  | tighter step inner ih =>
    exact ih.around [] [] id (by simp) rfl (fun derived => by simpa using .tighter step derived)
      rfl fun _ _ _ => rfl
  | @post token tokens operand inner typed ih =>
    exact ih.around [] [token] (Expr.post (some token.operator)) rfl rfl
      (fun derived => .post derived typed) rfl fun _ _ _ => rfl
  | @callNone opening closing tokens callee inner opens closes ih =>
    refine ih.around [] [opening, closing] (Expr.call · []) rfl rfl
      (fun derived => .callNone derived opens closes) (List.append_nil _)
      fun place other inside => ?_
    rw [replaceLeaf, if_pos inside]
  | call inner opens one commas more closes ih ihOne ihMore =>
    exact slotted_call inner opens one commas more closes ih ihOne ihMore
  | @pre token tokens operand typed inner ih =>
    exact ih.around [token] [] (Expr.pre (some token.operator)) (by simp)
      (nameCount_operator [] typed (by decide)) (fun derived => by simpa using .pre typed derived)
      rfl fun _ _ _ => rfl
  | power base typed exponent ihBase ihExponent =>
    exact slotted_bin base exponent (nameCount_skip [] typed (by decide))
      (fun one other => .power one typed other) ihBase ihExponent
  | product one typed other ihOne ihOther =>
    exact slotted_bin one other (nameCount_operator [] typed (by decide))
      (fun one other => .product one typed other) ihOne ihOther
  | sum one typed other ihOne ihOther =>
    exact slotted_bin one other (nameCount_operator [] typed (by decide))
      (fun one other => .sum one typed other) ihOne ihOther
  | cond inner asks one splits two ih ihOne ihTwo =>
    exact slotted_cond inner asks one splits two ih ihOne ihTwo
  | @assign token leftTokens rightTokens target right name typed value ihName ihValue =>
    intro place label found
    -- The first name is the target, and all others are in the value.
    cases place with
    | zero => simp [mentions] at found
    | succ place =>
      have length : 1 = nameCount leftTokens := name.length_mentions
      have noSign : nameCount [token] = 0 := nameCount_skip [] typed (by decide)
      exact (ihValue place label found).extend (leftTokens ++ [token]) [] (Expr.assign target)
        (by simp) (by rw [nameCount_append]; omega)
        (fun derived => by simpa using Derives.assign name typed derived) fun _ => rfl
  | sequence one typed other ihOne ihOther =>
    exact slotted_bin one other (nameCount_skip [] typed (by decide))
      (fun one other => .sequence one typed other) ihOne ihOther

mutual

/-- An expression whose leaf is replaced by itself is as it was. -/
theorem replaceLeaf_self : ∀ {expr : Expr} {place : Nat} {label : Label},
    expr.mentions[place]? = some (.leaf label) → expr.replaceLeaf place (.name label) = expr
  | .name own, 0, label, found => by
    obtain rfl : own = label := by simpa [mentions] using found
    rfl
  | .name own, place + 1, label, found => by simp [mentions] at found
  | .number value, place, label, found => rfl
  | .assign target value, 0, label, found => rfl
  | .assign target value, place + 1, label, found => by
    rw [mentions, List.getElem?_cons_succ] at found
    rw [replaceLeaf, replaceLeaf_self found]
  | .pre op operand, place, label, found => by
    rw [mentions] at found
    rw [replaceLeaf, replaceLeaf_self found]
  | .post op operand, place, label, found => by
    rw [mentions] at found
    rw [replaceLeaf, replaceLeaf_self found]
  | .bin left op right, place, label, found => by
    rw [mentions, List.getElem?_append] at found
    by_cases inside : place < left.mentions.length
    · rw [if_pos inside] at found
      rw [replaceLeaf, if_pos inside, replaceLeaf_self found]
    · rw [if_neg inside] at found
      rw [replaceLeaf, if_neg inside, replaceLeaf_self found]
  | .cond condition chosen other, place, label, found => by
    rw [mentions, List.getElem?_append] at found
    by_cases inside : place < condition.mentions.length
    · rw [if_pos inside] at found
      rw [replaceLeaf, if_pos inside, replaceLeaf_self found]
    · rw [if_neg inside, List.getElem?_append] at found
      by_cases early : place - condition.mentions.length < chosen.mentions.length
      · rw [if_pos early] at found
        simp only [replaceLeaf, if_neg inside, if_pos early, replaceLeaf_self found]
      · rw [if_neg early] at found
        simp only [replaceLeaf, if_neg inside, if_neg early, replaceLeaf_self found]
  | .call callee args, place, label, found => by
    rw [mentions, List.getElem?_append] at found
    by_cases inside : place < callee.mentions.length
    · rw [if_pos inside] at found
      rw [replaceLeaf, if_pos inside, replaceLeaf_self found]
    · rw [if_neg inside] at found
      rw [replaceLeaf, if_neg inside, replaceLeafAmong_self found]
  | .foreign value, place, label, found => rfl

/-- Expressions of which one has its leaf replaced by itself are as they were. -/
theorem replaceLeafAmong_self : ∀ {args : List Expr} {place : Nat} {label : Label},
    (mentionsAll args)[place]? = some (.leaf label) →
      replaceLeafAmong args place (.name label) = args
  | [], place, label, found => rfl
  | first :: rest, place, label, found => by
    rw [mentionsAll, List.getElem?_append] at found
    by_cases inside : place < first.mentions.length
    · rw [if_pos inside] at found
      rw [replaceLeafAmong, if_pos inside, replaceLeaf_self found]
    · rw [if_neg inside] at found
      rw [replaceLeafAmong, if_neg inside, replaceLeafAmong_self found]

end

/-- Tokens in any number of pairs of parentheses. -/
inductive Wrapped (tokens : List Token) : List Token → Prop
  | bare : Wrapped tokens tokens
  | paired {opening closing : Token} {list : List Token} (opens : opening.type = .kind .lparen)
      (inner : Wrapped tokens list) (closes : closing.type = .kind .rparen) :
    Wrapped tokens (opening :: (list ++ [closing]))

/-- An atom stays what it is in parentheses. -/
theorem Wrapped.atom {list : List Token} (wrapped : Wrapped tokens list)
    (derived : Derives .atom tokens expr) : Derives .atom list expr := by
  induction wrapped with
  | bare => exact derived
  | paired opens inner closes ih => exact .group opens (ih.weaken (by decide)) closes

/-- An expression stays what it is in parentheses. -/
theorem Wrapped.derives {list : List Token} (wrapped : Wrapped tokens list)
    (derived : Derives .sequence tokens expr) : Derives .sequence list expr := by
  induction wrapped with
  | bare => exact derived
  | paired opens inner closes ih => exact .weaken (by decide) (.group opens ih closes)

/-- A name token of a derived list is a leaf or a target, and a leaf makes room for a group. -/
theorem Derives.slot {before after : List Token} {token : Token}
    (derived : Derives stratum (before ++ token :: after) expr) (named : token.type = .kind .name)
    (free : ∀ label, expr.mentions[nameCount before]? ≠ some (.target label)) :
    expr.mentions[nameCount before]? = some (.leaf (some (token.text.getD ""))) ∧
      ∀ {group : List Token} {other : Expr}, Derives .atom group other →
        Derives stratum (before ++ (group ++ after))
          (expr.replaceLeaf (nameCount before) other) := by
  -- There are as many names in the expression as in the list, so one stands at the place.
  have within : nameCount before < expr.mentions.length := by
    rw [derived.length_mentions, nameCount_append, nameCount_name after named]
    omega
  obtain ⟨label, found⟩ : ∃ label, expr.mentions[nameCount before]? = some (.leaf label) := by
    cases known : expr.mentions[nameCount before] with
    | leaf label => exact ⟨label, by rw [List.getElem?_eq_getElem within, known]⟩
    | target label =>
      exact absurd (by rw [List.getElem?_eq_getElem within, known]) (free label)
  -- Its slot has as many names before it as the token has, so it is the token's.
  have slot := derived.slotted _ label found
  generalize split : before ++ token :: after = list, placed : nameCount before = place at *
  cases slot with
  | between front back other _ typed gives =>
    obtain ⟨rfl, rfl, rfl⟩ := eq_of_nameCount split named typed placed
    exact ⟨found, gives⟩

/--
Where a list with a name in it that is no target is an expression, and another list is one too, the
first with the second in parentheses for that name is the first expression with the second for the
name's leaf. In particular parentheses around such a name, or around a whole list, change nothing.
-/
theorem group_stands_for_a_name {before after inner : List Token} {token opening closing : Token}
    {expr other : Expr} (whole : ofSource (.ofTokens (before ++ token :: after)) true = .ok expr)
    (part : ofSource (.ofTokens inner) true = .ok other) (named : token.type = .kind .name)
    (opens : opening.type = .kind .lparen) (closes : closing.type = .kind .rparen)
    (free : ∀ label, expr.mentions[nameCount before]? ≠ some (.target label)) :
    expr.mentions[nameCount before]? = some (.leaf (some (token.text.getD ""))) ∧
    ofSource (.ofTokens (before ++ opening :: (inner ++ closing :: after))) true =
      .ok (expr.replaceLeaf (nameCount before) other) ∧
    (∀ group, Wrapped [token] group →
      ofSource (.ofTokens (before ++ (group ++ after))) true = .ok expr) ∧
    ∀ group, Wrapped (before ++ token :: after) group →
      ofSource (.ofTokens group) true = .ok expr := by
  simp only [ofTokens_ok_iff] at whole part ⊢
  obtain ⟨found, gives⟩ := whole.slot named free
  refine ⟨found, ?_, fun group wrapped => ?_, fun group wrapped => wrapped.derives whole⟩
  · have derived := gives (.group opens part closes)
    simpa using derived
  · -- In parentheses the name stands for the leaf that it was.
    have derived := gives (wrapped.atom (.name named))
    rwa [replaceLeaf_self found] at derived

/-- The second of two names is no target, and becomes a sum under the suffix behind it. -/
theorem sum_stands_for_the_second_name :
    let name (text : String) : Token := .ofKind .name text
    let before := [name "a", .ofKind .assign "=", .ofKind .minus "-"]
    let after : List Token := [.ofKind .bang "!"]
    let inner := [name "c", .ofKind .plus "+", name "a"]
    let sum := bin (.name (some "c")) (some "+") (.name (some "a"))
    let expr := assign (some "a") (.pre (some "-") (.post (some "!") (.name (some "b"))))
    ofSource (.ofTokens (before ++ name "b" :: after)) true = .ok expr ∧
    ofSource (.ofTokens inner) true = .ok sum ∧
    (∀ label, expr.mentions[nameCount before]? ≠ some (.target label)) ∧
    ofSource (.ofTokens
        (before ++ .ofKind .lparen "(" :: (inner ++ .ofKind .rparen ")" :: after))) true =
      .ok (assign (some "a") (.pre (some "-") (.post (some "!") sum))) := by
  intro name before after inner sum expr
  have whole : ofSource (.ofTokens (before ++ name "b" :: after)) true = .ok expr := by cbv
  have part : ofSource (.ofTokens inner) true = .ok sum := by cbv
  have free : ∀ label, expr.mentions[nameCount before]? ≠ some (.target label) := by
    intro label
    simp [expr, before, name, mentions, nameCount, Token.ofKind]
  exact ⟨whole, part, free,
    (group_stands_for_a_name whole part rfl rfl rfl free).2.1⟩

end Climb.Expr
