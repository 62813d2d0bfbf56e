import Climb.Command.Options
import Climb.Diagnostic
import Climb.Expr.Eval
import Climb.Expr.Fold
import Climb.Expr.Outline
import Climb.Settings.Basic

/-! What a run of the program prints, and how it ends. -/

namespace Climb

/-- The result of a run. -/
structure Report where
  /-- Zero for success, one for a failure that was reported, two for wrong usage. -/
  exit : Nat
  out : String := ""
  err : String := ""
  /-- A failure that is not reported as a diagnostic. -/
  escaped : Option Error := none

namespace Report

/-- A run with wrong options or arguments. -/
def misused : Report := { exit := 2 }

/-- The answer to a question about the program. -/
def answer : Inquiry → Report
  | .version => { exit := 0, out := "pratt, version 0.1.0\n" }
  | .help =>
    { exit := 0
      out := "Usage: pratt [-v] [--config FILE] (parse | eval | view) [OPTIONS] [EXPRESSION]\n" }

/-- A run that failed: a diagnostic if the failure has one, else the failure itself. -/
def failed (color : Bool) (out err : String) (failure : Error) : Report :=
  match failure.diagnostic? with
  | some diagnostic => { exit := 1, out := out, err := err ++ diagnostic.render color ++ "\n" }
  | none => { exit := 1, out := out, err := err, escaped := some failure }

end Report

/-- A text in which carriage returns, alone or before a line feed, are line feeds. -/
def universalLines : List Char → List Char
  | '\r' :: '\n' :: rest => '\n' :: universalLines rest
  | '\r' :: rest => '\n' :: universalLines rest
  | c :: rest => c :: universalLines rest
  | [] => []

/-- The lines of an outline, each ended. -/
def joinLines (lines : List String) : String :=
  String.join (lines.map (· ++ "\n"))

namespace Command

/-- What a command prints for an expression, and why it stopped if it did. -/
def output (command : Command) (post : Bool) (expr : Expr) : String × Option Error :=
  let printed (outcome : Except Error String) : String × Option Error :=
    match outcome with
    | .ok text => (text ++ "\n", none)
    | .error failure => ("", some failure)
  -- An expression without a text is printed as an empty line.
  let formatted := expr.format.map (·.getD "")
  match command with
  | parse => printed formatted
  | view =>
    let (lines, failure) := Expr.written (expr.outline 0)
    (joinLines lines, failure)
  | compute =>
    if post then printed (do (← (expr.evaluate []).1).format)
    else printed formatted

/-- Carries a command out on an expression. -/
def execute (command : Command) (settings : Settings) (terminal verbose : Bool)
    (options : CommandOptions) (text : String) : Report :=
  -- Colours go to terminals only, and only if the settings want them.
  let color := terminal && settings.color.truthy
  let fused := command = .compute ∧ !options.post
  let interpreter := if fused then some Expr.fold else none
  let exhaust := !(options.allowTrailing || settings.allowTrailing.truthy)
  let log := if verbose
    then "pratt.parser: " ++ (Expr.grammar.parsingNotice fused).message ++ "\n" else ""
  match (Expr.grammar.run interpreter (.ofString text) exhaust).1 with
  | .error failure => .failed color "" log failure
  | .ok expr =>
    match command.output options.post expr with
    | (out, none) => { exit := 0, out := out, err := log }
    | (out, some failure) => .failed color out log failure

/-- Carries a command out on its argument, or on the standard input if it has none. -/
def run (command : Command) (settings : Settings) (terminal verbose : Bool) (args : List String)
    (input : String) : Report :=
  match CommandOptions.read command {} args with
  | none => .misused
  | some options =>
    if options.help then .answer .help
    else match options.arguments with
    | [] => command.execute settings terminal verbose options
        (String.ofList (universalLines input.toList))
    | [text] => command.execute settings terminal verbose options text
    | _ => .misused

end Command

/-- What the arguments ask for: an answer that needs nothing else, or a command. -/
inductive Startup where
  | answered (report : Report)
  | chosen (options : ProgramOptions) (command : Command) (args : List String)

/-- Reads the options of the program and the name of the command. -/
def Startup.ofArgs (args : List String) : Startup :=
  match if args.isEmpty then none else ProgramOptions.read {} args with
  | none => .answered .misused
  | some (options, rest) =>
    match options.inquiry, rest with
    | some inquiry, _ => .answered (.answer inquiry)
    | none, [] => .answered .misused
    | none, name :: rest =>
      match Command.ofName? name with
      | some command => .chosen options command rest
      | none =>
        -- Where the name is an option after all, a question about the program is still answered.
        match ProgramOptions.read {} (name :: rest) with
        | some (⟨_, _, some inquiry⟩, _) => .answered (.answer inquiry)
        | _ => .answered .misused

/-- The settings of a run: from the named document, which has to be a file, or from the nearest. -/
def runSettings (tree : FileTree) (directory : List String) :
    Option String → Option (Except Error Settings)
  | none => some (Settings.nearest tree directory ".")
  | some path =>
    match tree.lookup directory path with
    | some (.file text) => some (Settings.ofDocument text)
    | _ => none

/-- Carries a command out with its settings, or tells why there are none. -/
def Command.runWith (command : Command) (settings : Option (Except Error Settings))
    (terminal verbose : Bool) (args : List String) (input : String) : Report :=
  -- Settings are judged before the options of the command are looked at.
  match settings with
  | none => .misused
  | some (.error failure) => .failed false "" "" failure
  | some (.ok settings) => command.run settings terminal verbose args input

/-- A run of the program in a directory of a tree of files. -/
def runProgram (tree : FileTree) (directory : List String) (terminal : Bool) (args : List String)
    (input : String) : Report :=
  match Startup.ofArgs args with
  | .answered report => report
  | .chosen options command rest =>
    let settings := runSettings tree directory options.config
    command.runWith settings terminal options.verbose rest input

end Climb
