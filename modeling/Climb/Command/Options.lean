/-! The options and arguments of the command line. -/

namespace Climb

/-- What the program can be asked to do with an expression. -/
inductive Command where
  /-- Write it with every operator in parentheses. -/
  | parse
  /-- Compute it as far as possible. -/
  | compute
  /-- Write its outline. -/
  | view
deriving Repr, DecidableEq

/-- The command of a name. -/
def Command.ofName? : String → Option Command
  | "parse" => some parse
  | "eval" => some compute
  | "view" => some view
  | _ => none

/-- Questions about the program itself, which are answered before anything else is done. -/
inductive Inquiry where
  | version | help
deriving Repr, DecidableEq

/-- Whether an argument is an option: a dash and something after it. -/
def isOption (arg : String) : Bool :=
  match arg.toList with
  | '-' :: _ :: _ => true
  | _ => false

/-- The name of an option and the value attached to it by an equals sign. -/
def splitOption (arg : String) : String × Option String :=
  let name := arg.toList.takeWhile (· != '=')
  match arg.toList.drop name.length with
  | _ :: value => (String.ofList name, some (String.ofList value))
  | [] => (arg, none)

/-- Whether an argument is one dash before letters that are all the same short option. -/
def isCluster (letter : Char) (arg : String) : Bool :=
  match arg.toList with
  | '-' :: letters => !letters.isEmpty && letters.all (· == letter)
  | _ => false

/-- The options before the name of the command. -/
structure ProgramOptions where
  verbose : Bool := false
  /-- The settings document, the last if several are given. -/
  config : Option String := none
  /-- The first question about the program. -/
  inquiry : Option Inquiry := none
deriving Repr, DecidableEq

/-- Reads the options before the name of the command; nothing if one of them is unknown. -/
def ProgramOptions.read (options : ProgramOptions) :
    List String → Option (ProgramOptions × List String)
  | [] => some (options, [])
  | arg :: rest =>
    if arg = "--" then some (options, rest)
    else if !isOption arg then some (options, arg :: rest)
    else if isCluster 'v' arg then ProgramOptions.read { options with verbose := true } rest
    else match splitOption arg with
    | ("--config", some value) => ProgramOptions.read { options with config := some value } rest
    | ("--config", none) =>
      match rest with
      | value :: rest => ProgramOptions.read { options with config := some value } rest
      | [] => none
    | ("--verbose", none) => ProgramOptions.read { options with verbose := true } rest
    | ("--version", none) =>
      ProgramOptions.read { options with inquiry := options.inquiry.or (some .version) } rest
    | ("--help", none) =>
      ProgramOptions.read { options with inquiry := options.inquiry.or (some .help) } rest
    | _ => none

/-- The options and arguments after the name of the command. -/
structure CommandOptions where
  allowTrailing : Bool := false
  /-- Build the whole expression first and compute it then. -/
  post : Bool := false
  help : Bool := false
  /-- Arguments that are no options, in order. -/
  arguments : List String := []
deriving Repr, DecidableEq

/-- Reads what follows the name of a command; nothing if an option is not one of that command. -/
def CommandOptions.read (command : Command) (options : CommandOptions) :
    List String → Option CommandOptions
  | [] => some options
  | arg :: rest =>
    if arg = "--" then some { options with arguments := options.arguments ++ rest }
    else if !isOption arg then
      CommandOptions.read command { options with arguments := options.arguments ++ [arg] } rest
    else if arg = "--allow-trailing" then
      CommandOptions.read command { options with allowTrailing := true } rest
    else if arg = "--help" then CommandOptions.read command { options with help := true } rest
    else if arg = "--post" ∧ command = .compute then
      CommandOptions.read command { options with post := true } rest
    else none

end Climb
