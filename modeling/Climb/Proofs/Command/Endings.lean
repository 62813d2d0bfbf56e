import Climb.Command.Run
import Climb.Proofs.Expr.Evaluation
import Climb.Proofs.Expr.LazyLexing
import Climb.Proofs.Expr.Writing
import Climb.Proofs.Token.Lexemes

/-! A run on an expression ends with a result or a diagnostic, unless a number fails. -/

namespace Climb

/-- A whole number in a text with more digits than are read. -/
def HasLongNumeral (text : String) : Prop :=
  ∃ word : String, .ofKind .number word ∈ (lex text).1 ∧ '.' ∉ word.toList ∧
    readingLimit < word.toList.length

/-- A failure that is reported as a diagnostic, and is not that reading ran out of its depth. -/
structure Error.IsReported (failure : Error) : Prop where
  coded : failure.code?.isSome = true
  shallow : failure ≠ .parse .tooDeep

/-- A number token of a text is read, unless it is a whole number with too many digits. -/
theorem readNumber_scanned {text : String} {token : Token} {failure : Error}
    (member : token ∈ (lex text).1) (typed : token.type = .kind .number)
    (failed : readNumber token.text = .error failure) :
    failure.IsNumeric ∧ HasLongNumeral text := by
  obtain ⟨kind, word, rfl, admitted⟩ := (Scanner.ofString text).tokens_admitted token member
  obtain rfl : kind = .number := by simpa [Token.ofKind] using typed
  have same : (String.ofList word).toList = word := String.toList_ofList
  simp only [Token.ofKind] at failed
  -- By the lexical grammar it is digits alone, or digits on both sides of a point.
  rcases admitted.number_cases with inside | ⟨digits, fraction, parts, inside, behind⟩
  · rw [readNumber_digits (by rw [same]; exact inside.1) (by rw [same]; exact inside.2)] at failed
    split at failed
    · rename_i long
      cases failed
      refine ⟨trivial, String.ofList word, member, ?_, long⟩
      rw [same]
      exact fun point => absurd (inside.2 _ point) (by decide)
    · cases failed
  · -- A number with a point is read as a double, however many digits it has.
    obtain ⟨value, read⟩ := readDouble_decimal (same.trans parts) inside.1 inside.2 behind.2
    have point : (String.ofList word).toList.contains '.' = true := by simp [parts]
    simp only [readNumber, point, if_true, read] at failed
    cases failed

namespace Expr

open Climb.Parser

/-- Reading an expression from a text does not run out of its depth. -/
theorem run_shallow {interpreter : Option (Interpreter Expr)} (text : String) (exhaust : Bool)
    (interprets : ∀ {node failure}, interpreted interpreter node = .error failure →
      failure.IsNumeric) :
    (grammar.run interpreter (.ofString text) exhaust).1 ≠ .error (.parse .tooDeep) := by
  have leaves : grammar.LeavesDepth interpreter := leavesDepth fun {node failure} failed deep => by
    subst deep
    exact interprets failed
  -- A text ends in a lexical fault at most.
  have lexical : (Source.ofString text).feed.cursor.failure ≠ some (.parse .tooDeep) := by
    intro deep
    obtain ⟨_, same⟩ := (Scanner.ofString text).tokens_lexical _ deep
    cases same
  have ends : (Source.ofString text).feed.Ends := trivial
  exact leaves.run_ends ends lexical exhaust

/--
Reading an expression from a text fails with a failure that is reported, or with one of the numbers.
The latter happens in a fold, or else the text has a whole number with too many digits.
-/
theorem run_fails {interpreter : Option (Interpreter Expr)} {folds : Prop} {text : String}
    {exhaust : Bool} {failure : Error}
    (interprets : ∀ {node failure}, interpreted interpreter node = .error failure →
      failure.IsNumeric ∧ folds)
    (failed : (grammar.run interpreter (.ofString text) exhaust).1 = .error failure) :
    failure.IsReported ∨ failure.IsNumeric ∧ (folds ∨ HasLongNumeral text) := by
  let failures (failure : Error) : Prop :=
    failure.code?.isSome = true ∨ failure.IsNumeric ∧ (folds ∨ HasLongNumeral text)
  have faults : ∀ fault, failures (.parse fault) := fun _ => .inl rfl
  -- Of the rules only the one of numbers fails in a way that is not told as a fault of reading.
  have keeps : grammar.KeepsTo interpreter (· = 0) (· ∈ (lex text).1) failures := by
    refine keepsTo (fun fault _ => faults fault) (fun member typed failed => ?_) fun failed => ?_
    · obtain ⟨numeric, long⟩ := readNumber_scanned member typed failed
      exact .inr ⟨numeric, .inr long⟩
    · obtain ⟨numeric, folding⟩ := interprets failed
      exact .inr ⟨numeric, .inl folding⟩
  -- The text supplies its tokens, and then perhaps a lexical fault.
  let fresh : ParseState Expr := ⟨.ofSource (.ofString text), []⟩
  have start : fresh.buffer.Supplies (· ∈ (lex text).1) failures := by
    refine ⟨by simp [fresh, Buffer.ofSource], fun place token answer => ?_,
      fun place fault answer => ?_⟩
    · rw [show fresh.buffer.source.feed = .scanned (.ofString text) from rfl,
        Feed.ask_scanned] at answer
      exact (Feed.ask_listed_only _ _ _).1 token answer
    · rw [show fresh.buffer.source.feed = .scanned (.ofString text) from rfl,
        Feed.ask_scanned] at answer
      have known := (Feed.ask_listed_only _ _ _).2 fault answer
      obtain ⟨lexical, rfl⟩ := (Scanner.ofString text).tokens_lexical fault known
      exact .inl rfl
  rcases ((keeps.composed_inputWithin faults _ exhaust).fails faults start).2 failure failed with
    coded | numeric
  · refine .inl ⟨coded, ?_⟩
    rintro rfl
    exact run_shallow text exhaust (fun failed => (interprets failed).1) failed
  · exact .inr numeric

end Expr

namespace Command

/-- What a command makes of a text: what it prints, and why it stopped if it did. -/
def outcome (command : Command) (settings : Settings) (options : CommandOptions) (text : String) :
    String × Option Error :=
  let fused := command = .compute ∧ !options.post
  let exhaust := !(options.allowTrailing || settings.allowTrailing.truthy)
  match (Expr.grammar.run (if fused then some Expr.fold else none) (.ofString text) exhaust).1 with
  | .error failure => ("", some failure)
  | .ok expr => command.output options.post expr

/-- What a run writes to the log before it reads anything. -/
def log (command : Command) (verbose : Bool) (options : CommandOptions) : String :=
  let fused := command = .compute ∧ !options.post
  if verbose then "pratt.parser: " ++ (Expr.grammar.parsingNotice fused).message ++ "\n" else ""

variable {command : Command} {expr : Expr} {failure : Error} {out text : String} {post : Bool}

/-- A command prints what it makes of a text, or tells why it stopped. -/
theorem execute_eq (command : Command) (settings : Settings) (terminal verbose : Bool)
    (options : CommandOptions) (text : String) :
    command.execute settings terminal verbose options text =
      match command.outcome settings options text with
      | (out, none) => { exit := 0, out := out, err := command.log verbose options }
      | (out, some failure) =>
        .failed (terminal && settings.color.truthy) out (command.log verbose options) failure := by
  simp only [execute, outcome, log]
  -- The run either stops before there is an expression, or goes on to what is made of one.
  split
  · rename_i failed
    simp only [failed]
  · rename_i expr read
    rcases written : command.output options.post expr with ⟨out, _ | failure⟩ <;>
      simp only [read, written]

/-- An expression with numbers that can be written is written. -/
theorem output_complete (proper : expr.Proper fun value => value.writable = true)
    (plain : command ≠ .compute) : (command.output post expr).2 = none := by
  -- The numbers that were read are short enough for both kinds of text.
  have texts : ∀ value : Number, value.writable = true →
      Yields (fun _ => True) (fun _ => False) value.format := by
    intro value short
    rcases value.format_cases with ⟨text, written⟩ | ⟨long, -⟩
    · rw [written]
      exact .ok trivial
    · rw [short] at long
      cases long
  have lines : ∀ value : Number, value.writable = true →
      Yields (fun _ => True) (fun _ => False) value.outlineText := by
    intro value short
    obtain ⟨text, written⟩ := Number.outlineText_writable short
    rw [written]
    exact .ok trivial
  cases command with
  | compute => exact absurd rfl plain
  | parse =>
    have formatted := proper.format texts
    simp only [output]
    cases outcome : expr.format with
    | ok label => rfl
    | error failure =>
      rw [outcome] at formatted
      cases formatted with
      | error impossible => exact impossible.elim
  | view =>
    have outlined := Expr.written_fails (proper.outline lines 0)
    simp only [output]
    cases stopped : (Expr.written (expr.outline 0)).2 with
    | none => rfl
    | some failure => exact (outlined failure stopped).elim

/-- A computed number is written, or it is too long. -/
theorem format_numeric {value : Number} (failed : value.format = .error failure) :
    failure.IsNumeric := by
  rcases value.format_cases with ⟨text, written⟩ | ⟨-, long⟩
  · rw [written] at failed
    cases failed
  · rw [long] at failed
    cases failed
    trivial

/-- An expression that was folded on the way is written, unless a number in it is too long. -/
theorem output_folded (proper : expr.Proper fun _ => True)
    (failed : (compute.output false expr).2 = some failure) : failure.IsNumeric := by
  -- A folded number may have grown too long, which is the one way to fail.
  have texts : ∀ value : Number, True → Yields (fun _ => True) Error.IsNumeric value.format := by
    intro value _
    cases outcome : value.format with
    | ok text => exact .ok trivial
    | error failure => exact .error (format_numeric outcome)
  have formatted := proper.format texts
  simp only [output, Bool.false_eq_true, if_false] at failed
  cases outcome : expr.format with
  | ok label =>
    rw [outcome] at failed
    cases failed
  | error other =>
    rw [outcome] at failed formatted
    cases failed
    cases formatted with
    | error numeric => exact numeric

/-- An expression that is computed afterwards has a number that is written, or a failure. -/
theorem output_computed (failed : (compute.output true expr).2 = some failure) :
    failure.IsReported ∨ failure.IsNumeric := by
  -- There are no names, so no function could be called that fails otherwise.
  have computed := (expr.computes_evaluate [] (by simp [Env.NumbersOnly])).1
  simp only [output, if_true] at failed
  cases outcome : (expr.evaluate []).1 with
  | error other =>
    rw [outcome] at failed computed
    cases failed
    cases computed with
    | error known =>
      rcases known with ⟨fault, rfl⟩ | numeric
      · exact .inl ⟨rfl, by simp⟩
      · exact .inr numeric
  | ok value =>
    rw [outcome] at failed
    cases written : value.format with
    | ok text =>
      simp only [bind, Except.bind, written] at failed
      cases failed
    | error other =>
      simp only [bind, Except.bind, written] at failed
      cases failed
      exact .inr (format_numeric written)

/--
A command that stops has a failure that is reported, or one of the numbers. The latter comes of
computing, or else the text has a whole number with too many digits.
-/
theorem outcome_fails {settings : Settings} {options : CommandOptions}
    (stopped : command.outcome settings options text = (out, some failure)) :
    failure.IsReported ∨ failure.IsNumeric ∧ (command = .compute ∨ HasLongNumeral text) := by
  simp only [outcome] at stopped
  split at stopped
  · rename_i other failed
    cases stopped
    refine Expr.run_fails (fun {node failure} broken => ?_) failed
    -- Without a fold no node is refused.
    split at broken
    · rename_i fused
      exact ⟨Expr.fold_fails broken, fused.1⟩
    · cases broken
  · rename_i expr read
    have failed := congrArg Prod.snd stopped
    -- Only computing leaves numbers that were not read, on the way or afterwards.
    by_cases computes : command = .compute
    · subst computes
      cases way : options.post with
      | true =>
        rw [way] at failed
        exact (output_computed failed).imp_right fun numeric => ⟨numeric, .inl rfl⟩
      | false =>
        simp only [way, Bool.not_false, and_self, if_true] at read
        rw [way] at failed
        exact .inr ⟨output_folded (Expr.proper_of_folded read) failed, .inl rfl⟩
    · simp only [computes, false_and, if_false] at read
      rw [output_complete (Expr.proper_of_read read) computes] at failed
      cases failed

end Command

/-- Arguments that start with the name of a command choose it, and leave the others to it. -/
theorem Startup.ofArgs_command {name : String} {command : Command}
    (known : Command.ofName? name = some command) (rest : List String) :
    Startup.ofArgs (name :: rest) = .chosen {} command rest := by
  have read : ProgramOptions.read {} (name :: rest) = some ({}, name :: rest) := by
    -- No name of a command looks like an option.
    have plain : name ≠ "--" ∧ isOption name = false := by
      simp only [Command.ofName?] at known
      split at known
      · decide +kernel
      · decide +kernel
      · decide +kernel
      · cases known
    rw [ProgramOptions.read.eq_def]
    simp [plain]
  simp [Startup.ofArgs, read, known]

/-- A run whose arguments, settings and input ask for a command to be carried out on a text. -/
structure Asks (tree : FileTree) (directory : List String) (args : List String) (input : String)
    (program : ProgramOptions) (settings : Settings) (command : Command)
    (options : CommandOptions) (text : String) : Prop where
  chosen : ∃ rest, Startup.ofArgs args = .chosen program command rest ∧
    CommandOptions.read command {} rest = some options
  settled : runSettings tree directory program.config = some (.ok settings)
  works : options.help = false
  /-- The text is the one argument, or the standard input where there is none. -/
  text : options.arguments = [text] ∨
    options.arguments = [] ∧ text = String.ofList (universalLines input.toList)

variable {tree : FileTree} {directory args : List String} {input : String}
  {program : ProgramOptions} {settings : Settings} {command : Command} {options : CommandOptions}
  {text : String}

/-- A run that is asked to carry out a command does so. -/
theorem Asks.run (asks : Asks tree directory args input program settings command options text)
    (terminal : Bool) :
    runProgram tree directory terminal args input =
      command.execute settings terminal program.verbose options text := by
  obtain ⟨⟨rest, chosen, read⟩, settled, works, arguments⟩ := asks
  simp only [runProgram, chosen, settled, Command.runWith, Command.run, read, works,
    Bool.false_eq_true, if_false]
  rcases arguments with one | ⟨none, rfl⟩
  · rw [one]
  · rw [none]

/--
A run on an expression prints the result of its command and exits with zero; or it reports the
failure of the command in a diagnostic and exits with one, where the failure is none of a depth that
is not enough; or the failure is one of the numbers and escapes. The last happens where the
expression is computed, or where its text has a whole number with too many digits to be read.
-/
theorem run_ends_cleanly_unless_numbers_fail (terminal : Bool)
    (asks : Asks tree directory args input program settings command options text) :
    let report := runProgram tree directory terminal args input
    let log := command.log program.verbose options
    ∃ out,
      (command.outcome settings options text = (out, none) ∧
        report = { exit := 0, out := out, err := log }) ∨
      (∃ failure diagnostic, command.outcome settings options text = (out, some failure) ∧
        failure.diagnostic? = some diagnostic ∧ failure ≠ .parse .tooDeep ∧
        report = { exit := 1, out := out,
                   err := log ++ diagnostic.render (terminal && settings.color.truthy) ++ "\n" }) ∨
      (∃ failure, command.outcome settings options text = (out, some failure) ∧
        report = { exit := 1, out := out, err := log, escaped := some failure } ∧
        failure.IsNumeric ∧ (command = .compute ∨ HasLongNumeral text)) := by
  intro report log
  have ends : report = _ := (asks.run terminal).trans (command.execute_eq _ _ _ _ _)
  rcases stopped : command.outcome settings options text with ⟨out, _ | failure⟩
  · rw [stopped] at ends
    exact ⟨out, .inl ⟨rfl, ends⟩⟩
  · rw [stopped] at ends
    have known := command.outcome_fails stopped
    refine ⟨out, .inr ?_⟩
    -- Whether a failure has a diagnostic decides between a report and an escape.
    cases reported : failure.diagnostic? with
    | some diagnostic =>
      simp only [Report.failed, reported] at ends
      refine .inl ⟨failure, diagnostic, rfl, reported, ?_, ends⟩
      rcases known with reported | numeric
      · exact reported.shallow
      · rintro rfl
        exact numeric.1
    | none =>
      simp only [Report.failed, reported] at ends
      refine .inr ⟨failure, rfl, ends, ?_⟩
      rcases known with ⟨coded, -⟩ | numeric
      · -- A failure with a code has a diagnostic.
        simp only [Error.diagnostic?, Option.map_eq_none_iff] at reported
        simp [reported] at coded
      · exact numeric

/-- Writing a sum with something left after it does not compute, and its numbers are short. -/
theorem writing_a_sum_ends_cleanly :
    let text := "a+1 b"
    let args := ["parse", "--allow-trailing", text]
    let options : CommandOptions := { allowTrailing := true, arguments := [text] }
    Asks ⟨[]⟩ [] args "" {} {} .parse options text ∧ ¬HasLongNumeral text ∧
      (runProgram ⟨[]⟩ [] false args "").escaped = none := by
  intro text args options
  have asks : Asks ⟨[]⟩ [] args "" {} {} .parse options text :=
    ⟨⟨_, Startup.ofArgs_command rfl _, by decide +kernel⟩, by cbv, rfl, .inl rfl⟩
  -- The one number of the text has a single digit.
  have short : ¬HasLongNumeral text := by
    rintro ⟨word, member, -, long⟩
    have tokens : (lex text).1 = [.ofKind .name "a", .ofKind .plus "+", .ofKind .number "1",
      .ofKind .name "b"] := by cbv
    obtain rfl : word = "1" := by simpa [tokens, Token.ofKind] using member
    exact absurd long (by decide)
  refine ⟨asks, short, ?_⟩
  obtain ⟨out, ⟨-, ends⟩ | ⟨_, _, -, -, -, ends⟩ | ⟨failure, -, -, -, computes | long⟩⟩ :=
    run_ends_cleanly_unless_numbers_fail false asks
  · rw [ends]
  · rw [ends]
  · cases computes
  · exact absurd long short

/-- A quotient that is not chosen escapes: it lies beyond the doubles, and nothing reports that. -/
theorem unchosen_quotient_escapes :
    let report := runProgram ⟨[]⟩ [] false ["eval", "0?171!/1:5"] ""
    report.exit = 1 ∧ report.out = "" ∧ report.err = "" ∧
      report.escaped = some (.range .quotient) := by
  intro report
  let text := "0?171!/1:5"
  have asks : Asks ⟨[]⟩ [] ["eval", text] "" {} {} .compute { arguments := [text] } text :=
    ⟨⟨_, Startup.ofArgs_command rfl _, by decide +kernel⟩, by cbv, rfl, .inl rfl⟩
  have read : Expr.ofSource (.ofString text) true = .ok (.cond (.number (.int 0))
      (.bin (.post (some "!") (.number (.int 171))) (some "/") (.number (.int 1)))
      (.number (.int 5))) := by cbv
  -- The factorial is a whole number, but its quotient is rounded to a double that does not exist.
  obtain ⟨power, divided⟩ := Number.factorial_beyond_doubles
  have folded : Expr.foldedOfSource (.ofString text) true = .error (.range .quotient) := by
    rw [Expr.foldedOfSource_eq read]
    simp only [Expr.foldAll, Expr.fold, Expr.foldOutcome, power, divided, bind, Except.bind]
  have stopped : Command.compute.outcome {} { arguments := [text] } text =
      ("", some (.range .quotient)) := by
    have run : (Expr.grammar.run (some Expr.fold) (.ofString text) true).1 = _ := folded
    simp [Command.outcome, Datum.truthy, run]
  have ends : report = _ := (asks.run false).trans (Command.execute_eq _ _ _ _ _ _)
  rw [ends, stopped]
  exact ⟨rfl, rfl, rfl, rfl⟩

end Climb
