import Climb.Proofs.Expr.Failures
import Climb.Proofs.Expr.Folding
import Climb.Proofs.Number.Writing

/-! Every expression that is read from tokens can be written. -/

namespace Climb

variable {α β : Type}

/-- A computation whose value is of some kind, or that fails in one of some ways. -/
inductive Yields (good : α → Prop) (failures : Error → Prop) : Except Error α → Prop
  | ok {value : α} (known : good value) : Yields good failures (.ok value)
  | error {failure : Error} (known : failures failure) : Yields good failures (.error failure)

/-- What is made of a value of some kind is of another kind, or fails in one of the same ways. -/
theorem Yields.bind {good : α → Prop} {better : β → Prop} {failures : Error → Prop}
    {first : Except Error α} {next : α → Except Error β} (start : Yields good failures first)
    (rest : ∀ {value}, good value → Yields better failures (next value)) :
    Yields better failures (first >>= next) := by
  cases start with
  | ok known => exact rest known
  | error known => exact .error known

/-- A value that is only changed fails as it did before. -/
theorem Yields.map {good : α → Prop} {better : β → Prop} {failures : Error → Prop}
    {first : Except Error α} {change : α → β} (start : Yields good failures first)
    (kept : ∀ {value}, good value → better (change value)) :
    Yields better failures (first.map change) := by
  cases start with
  | ok known => exact .ok (kept known)
  | error known => exact .error known

/-- A number that has been read can be written. -/
theorem writable_readNumber {text : Option String} {value : Number}
    (read : readNumber text = .ok value) : value.writable = true := by
  cases text with
  | none => cases read
  | some text =>
    simp only [readNumber] at read
    -- A double is always short enough; a whole number was as long when it was read.
    split at read
    · obtain ⟨double, -, done⟩ := Expr.bind_ok read
      cases done
      rfl
    · obtain ⟨whole, found, done⟩ := Expr.bind_ok read
      cases done
      exact isWritable_readInt found

/-- Arguments with all their texts can be joined. -/
theorem joinArguments_complete {failures : Error → Prop} {args : List Label}
    (complete : ∀ label ∈ args, label.isSome = true) :
    Yields (fun _ => True) failures (joinArguments args) := by
  -- Only a text that is missing could not be joined.
  have none : args.findIdx? Option.isNone = Option.none :=
    List.findIdx?_eq_none_iff.2 fun label member => by simp [complete label member]
  rw [joinArguments, none]
  exact .ok trivial

namespace Expr

/-- An expression in which no name is left out and nothing foreign stands, with some numbers. -/
inductive Proper (numbers : Number → Prop) : Expr → Prop
  | name (text : String) : Proper numbers (.name (some text))
  | number {value : Number} (known : numbers value) : Proper numbers (.number value)
  | assign (target : Label) {value : Expr} (inner : Proper numbers value) :
    Proper numbers (.assign target value)
  | pre (op : Label) {operand : Expr} (inner : Proper numbers operand) :
    Proper numbers (.pre op operand)
  | post (op : Label) {operand : Expr} (inner : Proper numbers operand) :
    Proper numbers (.post op operand)
  | bin (op : Label) {left right : Expr} (one : Proper numbers left)
    (two : Proper numbers right) : Proper numbers (.bin left op right)
  | cond {condition chosen other : Expr} (inner : Proper numbers condition)
    (one : Proper numbers chosen) (two : Proper numbers other) :
    Proper numbers (.cond condition chosen other)
  | call {callee : Expr} {args : List Expr} (inner : Proper numbers callee)
    (each : ∀ arg ∈ args, Proper numbers arg) : Proper numbers (.call callee args)

variable {numbers : Number → Prop} {failures : Error → Prop} {expr : Expr}

/-- Expressions have texts if each of them has one. -/
theorem formatAll_yields {args : List Expr}
    (each : ∀ arg ∈ args, Yields (fun label => label.isSome = true) failures arg.format) :
    Yields (fun labels : List Label => ∀ label ∈ labels, label.isSome = true) failures
      (formatAll args) := by
  -- The texts are made in order, and the first that is missing ends them.
  induction args with
  | nil => exact .ok (by simp)
  | cons first rest ih =>
    obtain ⟨one, others⟩ := List.forall_mem_cons.1 each
    refine one.bind fun known => (ih others).bind fun more => .ok ?_
    exact List.forall_mem_cons.2 ⟨known, more⟩

/-- A proper expression has a text, unless a number in it has none. -/
theorem Proper.format (proper : expr.Proper numbers)
    (texts : ∀ value, numbers value → Yields (fun _ => True) failures value.format) :
    Yields (fun label => label.isSome = true) failures expr.format := by
  -- The texts of the parts come first, and then nothing can go wrong.
  induction proper with
  | name text => exact .ok rfl
  | @number value known => exact (texts value known).map fun _ => rfl
  | assign target inner ih => exact ih.bind fun _ => .ok rfl
  | pre op inner ih => exact ih.bind fun _ => .ok rfl
  | post op inner ih => exact ih.bind fun _ => .ok rfl
  | bin op one two ihOne ihTwo => exact ihOne.bind fun _ => ihTwo.bind fun _ => .ok rfl
  | cond inner one two ih ihOne ihTwo =>
    exact ih.bind fun _ => ihOne.bind fun _ => ihTwo.bind fun _ => .ok rfl
  | call inner each ih ihEach =>
    exact (formatAll_yields ihEach).bind fun complete =>
      (joinArguments_complete complete).bind fun _ => ih.bind fun _ => .ok rfl

/-- A line of an outline that is there, or whose number has no text. -/
abbrev LineYields (failures : Error → Prop) (line : Line) : Prop :=
  Yields (fun _ => True) failures line

/-- The lines of a label can be written. -/
theorem labelField_yields (depth : Int) (field : String) (label : Label) :
    ∀ line ∈ labelField depth field label, LineYields failures line := by
  cases label with
  | none => simp [labelField]
  | some text =>
    simp only [labelField, Option.toList_some, List.map_cons, List.map_nil, List.mem_singleton]
    rintro _ rfl
    exact .ok trivial

/-- The lines of a field can be written if those of its value can. -/
theorem fieldLines_yields (depth : Int) (field : String) (value : Expr) {lines : List Line}
    (inner : ∀ line ∈ lines, LineYields failures line) :
    ∀ line ∈ fieldLines depth field value lines, LineYields failures line := by
  unfold fieldLines
  -- A value that is missing has no line, a plain one has its own, and any other has its lines
  -- below.
  split
  · simp
  · simp only [List.mem_singleton]
    rintro _ rfl
    exact .ok trivial
  · exact List.forall_mem_cons.2 ⟨.ok trivial, inner⟩

/-- The lines of expressions can be written if those of each can. -/
theorem outlineAll_yields {args : List Expr} (depth : Int)
    (each : ∀ arg ∈ args, ∀ line ∈ outline depth arg, LineYields failures line) :
    ∀ line ∈ outlineAll depth args, LineYields failures line := by
  induction args with
  | nil => simp [outlineAll]
  | cons first rest ih =>
    obtain ⟨one, others⟩ := List.forall_mem_cons.1 each
    exact List.forall_mem_append.2 ⟨one, ih others⟩

/-- The lines of a node with a label and one field can be written if those of the field can. -/
theorem labelledLines_yields (heading : String) (depth : Int) (named field : String) (label : Label)
    (value : Expr) {lines : List Line} (inner : ∀ line ∈ lines, LineYields failures line) :
    ∀ line ∈ .ok heading :: (labelField depth named label ++ fieldLines depth field value lines),
      LineYields failures line :=
  List.forall_mem_cons.2 ⟨.ok trivial, List.forall_mem_append.2
    ⟨labelField_yields depth named label, fieldLines_yields depth field value inner⟩⟩

/-- The lines of a proper expression can be written, unless a number in it has no text. -/
theorem Proper.outline (proper : expr.Proper numbers)
    (texts : ∀ value, numbers value → Yields (fun _ => True) failures value.outlineText) :
    ∀ depth, ∀ line ∈ expr.outline depth, LineYields failures line := by
  have good : ∀ text : String, LineYields failures (.ok text) := fun _ => .ok trivial
  -- The heading and the labels are always there, and the fields are the outlines of the parts.
  induction proper with
  | name text =>
    intro depth
    exact List.forall_mem_cons.2 ⟨good _, labelField_yields depth _ _⟩
  | @number value known =>
    intro depth
    refine List.forall_mem_cons.2 ⟨good _, List.forall_mem_singleton.2 ?_⟩
    exact (texts value known).map fun _ => trivial
  | assign target inner ih => exact fun _ => labelledLines_yields _ _ _ _ _ _ (ih _)
  | pre op inner ih => exact fun _ => labelledLines_yields _ _ _ _ _ _ (ih _)
  | post op inner ih => exact fun _ => labelledLines_yields _ _ _ _ _ _ (ih _)
  | bin op one two ihOne ihTwo =>
    intro depth
    simp only [Expr.outline, List.cons_append, List.append_assoc, List.forall_mem_cons,
      List.forall_mem_append]
    exact ⟨good _, fieldLines_yields _ _ _ (ihOne _), labelField_yields _ _ _,
      fieldLines_yields _ _ _ (ihTwo _)⟩
  | cond inner one two ih ihOne ihTwo =>
    intro depth
    simp only [Expr.outline, List.cons_append, List.append_assoc, List.forall_mem_cons,
      List.forall_mem_append]
    exact ⟨good _, fieldLines_yields _ _ _ (ih _), fieldLines_yields _ _ _ (ihOne _),
      fieldLines_yields _ _ _ (ihTwo _)⟩
  | call inner each ih ihEach =>
    intro depth
    simp only [Expr.outline, List.cons_append, List.forall_mem_cons, List.forall_mem_append]
    refine ⟨good _, fieldLines_yields _ _ _ (ih _), ?_⟩
    split
    · exact List.forall_mem_singleton.2 (good _)
    · exact List.forall_mem_cons.2 ⟨good _,
        outlineAll_yields _ fun arg member => ihEach arg member _⟩

/-- Lines are written up to the first that fails, and its failure is the only one. -/
theorem written_fails {lines : List Line} (each : ∀ line ∈ lines, LineYields failures line) :
    ∀ failure ∈ (written lines).2, failures failure := by
  induction lines with
  | nil => simp [written]
  | cons first rest ih =>
    obtain ⟨one, others⟩ := List.forall_mem_cons.1 each
    -- Only the line that ends the writing can be the failure.
    cases one with
    | ok _ => exact ih others
    | error known => simpa [written] using known

/-- One and the same expression, which is proper. -/
def SameProper (numbers : Number → Prop) (expr other : Expr) : Prop :=
  expr = other ∧ expr.Proper numbers

/-- The same expressions, each of them proper. -/
theorem sameProper_all {args others : List Expr}
    (same : List.Forall₂ (SameProper numbers) args others) :
    args = others ∧ ∀ arg ∈ args, arg.Proper numbers := by
  -- Pairwise the same, so the lists are, and each of one is proper.
  induction same with
  | nil => exact ⟨rfl, by simp⟩
  | cons first rest ih => exact ⟨by rw [first.1, ih.1], List.forall_mem_cons.2 ⟨first.2, ih.2⟩⟩

/-- A call of a proper expression with proper arguments is proper. -/
theorem sameProper_call {callee newCallee : Expr} {args newArgs : List Expr}
    (same : SameProper numbers callee newCallee)
    (all : List.Forall₂ (SameProper numbers) args newArgs) :
    SameProper numbers (.call callee args) (.call newCallee newArgs) := by
  obtain ⟨rfl, proper⟩ := same
  obtain ⟨rfl, each⟩ := sameProper_all all
  exact ⟨rfl, .call proper each⟩

/-- A conditional of proper expressions is proper. -/
theorem sameProper_cond {condition newCondition chosen newChosen other newOther : Expr}
    (same : SameProper numbers condition newCondition) (one : SameProper numbers chosen newChosen)
    (two : SameProper numbers other newOther) :
    SameProper numbers (.cond condition chosen other) (.cond newCondition newChosen newOther) := by
  obtain ⟨rfl, inner⟩ := same
  obtain ⟨rfl, properChosen⟩ := one
  obtain ⟨rfl, properOther⟩ := two
  exact ⟨rfl, .cond inner properChosen properOther⟩

/-- An operator between proper operands is proper. -/
theorem respects_proper_bin (strength : Int) (associativity : Associativity) :
    (TailRule.binary "bin" buildBin strength associativity).Respects (SameProper numbers)
      (SameProper numbers) := by
  rintro token left _ right _ ⟨rfl, one⟩ ⟨rfl, two⟩
  exact .ok ⟨rfl, .bin _ one two⟩

/-- An assignment of a proper value is proper. -/
theorem respects_proper_assign :
    (TailRule.binary "bin" buildAssign 2 .right).Respects (SameProper numbers)
      (SameProper numbers) := by
  rintro token left _ right _ ⟨rfl, one⟩ ⟨rfl, two⟩
  -- Whatever is not a name is refused as a target, so only names need be looked at.
  cases one with
  | name text => exact .ok ⟨rfl, .assign _ two⟩
  | _ => exact .error _

/-- What is read is proper, if the numbers that are read are such, and what is interpreted is. -/
theorem proper_simulates {interpreter : Option (Interpreter Expr)}
    (reads : ∀ {text value}, readNumber text = .ok value → numbers value)
    (interprets : ∀ {node result}, node.Proper numbers →
      Parser.interpreted interpreter node = .ok result → result.Proper numbers) :
    Grammar.Simulation grammar interpreter interpreter (fun _ _ => False) (SameProper numbers)
      (SameProper numbers) where
  -- Rule by rule: each makes a proper node of proper ones, or fails.
  heads := by
    intro token rule found
    rcases head?_cases found with ⟨-, rfl⟩ | ⟨-, rfl⟩ | ⟨-, rfl⟩ | ⟨-, rfl⟩
    · exact fun token => .ok ⟨rfl, .name _⟩
    · intro token
      cases built : buildNumber token with
      | error failure => exact .error failure
      | ok node =>
        obtain ⟨value, read, done⟩ := bind_ok built
        cases done
        exact .ok ⟨rfl, .number (reads read)⟩
    · rintro token one _ ⟨rfl, proper⟩
      exact .ok ⟨rfl, .pre _ proper⟩
    · exact respects_group id
  tails := by
    intro token rule found
    rcases tail?_cases found with ⟨-, rfl⟩ | ⟨-, rfl⟩ | ⟨-, rfl⟩ | ⟨-, rfl⟩ | ⟨-, rfl⟩ | ⟨-, rfl⟩ |
      ⟨-, rfl⟩ | ⟨-, rfl⟩
    · exact respects_proper_bin 1 .right
    · exact respects_proper_assign
    · exact respects_cond 3 sameProper_cond
    · exact respects_proper_bin 4 .left
    · exact respects_proper_bin 5 .left
    · exact respects_proper_bin 6 .right
    · rintro token one _ ⟨rfl, proper⟩
      exact .ok ⟨rfl, .post _ proper⟩
    · exact respects_call 9 sameProper_call
  interprets := by
    rintro node _ ⟨rfl, proper⟩
    refine .inr ?_
    cases done : Parser.interpreted interpreter node with
    | error failure => exact .error failure
    | ok result => exact .ok ⟨rfl, interprets proper done⟩

/-- What a run builds is proper, if the numbers that are read and what is interpreted are such. -/
theorem proper_of_run {interpreter : Option (Interpreter Expr)} {source : Source} {exhaust : Bool}
    (reads : ∀ {text value}, readNumber text = .ok value → numbers value)
    (interprets : ∀ {node result}, node.Proper numbers →
      Parser.interpreted interpreter node = .ok result → result.Proper numbers)
    (read : (grammar.run interpreter source exhaust).1 = .ok expr) : expr.Proper numbers := by
  -- The run is compared with itself, so it breaks off nowhere.
  rcases (proper_simulates reads interprets).run source exhaust with ⟨_, _, broken⟩ | ⟨-, outcomes⟩
  · exact broken.elim
  · rw [read] at outcomes
    cases outcomes with
    | ok same => exact same.2

/-- An expression that is read as it stands is proper, and its numbers can be written. -/
theorem proper_of_read {source : Source} {exhaust : Bool}
    (read : (grammar.run none source exhaust).1 = .ok expr) :
    expr.Proper fun value => value.writable = true := by
  refine proper_of_run writable_readNumber ?_ read
  intro node _ proper done
  cases done
  exact proper

/-- An expression that is folded on the way is proper. -/
theorem proper_of_folded {source : Source} {exhaust : Bool}
    (read : (grammar.run (some fold) source exhaust).1 = .ok expr) :
    expr.Proper fun _ => True := by
  refine proper_of_run (fun _ => trivial) ?_ read
  intro node result proper done
  -- A fold leaves a node as it is, or makes a number of it.
  rcases fold_cases done with rfl | ⟨value, rfl⟩
  · exact proper
  · exact .number trivial

end Expr

end Climb
